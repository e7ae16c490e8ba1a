/-
# Folders with other files

`Folder.mapFiles` gives every file of a folder new bytes and leaves all names as they
are. Writing one file is the special case in which all others keep their bytes, and
several writes are one such change. What stands at a location is found in the same way
before and after.

In a well-formed folder the files are exactly what locations lead to, so a change of the
files says what stands at each location.
-/

import AttributeLists.Files.Folder

namespace AttributeLists

namespace Folder

/-- The folder with other bytes in its files, as a rule gives them for the location and
the bytes of each file. -/
def mapFiles (rule : Location → Bytes → Bytes) : Folder → Folder
  | empty => empty
  | file name bytes rest => file name (rule [name] bytes) (rest.mapFiles rule)
  | folder name inner rest =>
      folder name (inner.mapFiles fun below => rule (name :: below)) (rest.mapFiles rule)

end Folder

/-- The node with other bytes in its files, whose locations start at the node. -/
def Node.mapFiles (rule : Location → Bytes → Bytes) : Node → Node
  | .file bytes => .file (rule [] bytes)
  | .folder inner => .folder (inner.mapFiles rule)

namespace Folder

variable {f : Folder}

theorem mapFiles_mapFiles (first second : Location → Bytes → Bytes) (f : Folder) :
    (f.mapFiles first).mapFiles second =
      f.mapFiles fun location bytes => second location (first location bytes) := by
  induction f generalizing first second with
  | empty => rfl
  | file name bytes rest ih => simp only [mapFiles, ih]
  | folder name inner rest ihInner ihRest => simp only [mapFiles, ihInner, ihRest]

theorem files_mapFiles (rule : Location → Bytes → Bytes) (f : Folder) :
    (f.mapFiles rule).files = f.files.map fun file => (file.1, rule file.1 file.2) := by
  induction f generalizing rule with
  | empty => rfl
  | file name bytes rest ih => simp only [mapFiles, files, ih, List.map_cons]
  | folder name inner rest ihInner ihRest =>
      simp only [mapFiles, files, ihInner, ihRest, List.map_append, List.map_map]
      rfl

/-- Rules that agree on the files of a folder make the same folder of it. -/
theorem mapFiles_congr {rule other : Location → Bytes → Bytes}
    (agree : ∀ file ∈ f.files, rule file.1 file.2 = other file.1 file.2) :
    f.mapFiles rule = f.mapFiles other := by
  induction f generalizing rule other with
  | empty => rfl
  | file name bytes rest ih =>
      have first := agree ([name], bytes) List.mem_cons_self
      have later := ih fun file inside => agree file (List.mem_cons_of_mem _ inside)
      simp only [mapFiles, first, later]
  | folder name inner rest ihInner ihRest =>
      have within : inner.mapFiles (fun below => rule (name :: below)) =
          inner.mapFiles fun below => other (name :: below) := by
        apply ihInner
        intro file inside
        apply agree (name :: file.1, file.2)
        exact List.mem_append_left _ (List.mem_map_of_mem inside)
      have later := ihRest fun file inside => agree file (List.mem_append_right _ inside)
      simp only [mapFiles, within, later]

theorem mapFiles_same (f : Folder) : (f.mapFiles fun _ bytes => bytes) = f := by
  induction f with
  | empty => rfl
  | file name bytes rest ih => rw [mapFiles, ih]
  | folder name inner rest ihInner ihRest => rw [mapFiles, ihInner, ihRest]

theorem child?_mapFiles (rule : Location → Bytes → Bytes) (name : String) (f : Folder) :
    (f.mapFiles rule).child? name =
      (f.child? name).map (Node.mapFiles fun below => rule (name :: below)) := by
  induction f generalizing rule with
  | empty => rfl
  | file other bytes rest ih =>
      by_cases same : other = name
      · simp [mapFiles, child?, same, Node.mapFiles]
      · simp [mapFiles, child?, same, ih]
  | folder other inner rest _ ih =>
      by_cases same : other = name
      · simp [mapFiles, child?, same, Node.mapFiles]
      · simp [mapFiles, child?, same, ih]

/-- What stands at a location has the bytes that the rule gives to its files. -/
theorem node?_mapFiles (rule : Location → Bytes → Bytes) (location : Location) (f : Folder) :
    (f.mapFiles rule).node? location =
      (f.node? location).map (Node.mapFiles fun below => rule (location ++ below)) := by
  induction location generalizing f rule with
  | nil => rfl
  | cons name rest ih =>
      rw [node?, node?, child?_mapFiles]
      cases f.child? name with
      | none => rfl
      | some node =>
          cases node with
          | folder inner => exact ih _ inner
          | file bytes => by_cases last : rest = [] <;> simp [last, Node.mapFiles]

theorem hasFolder_mapFiles (rule : Location → Bytes → Bytes) (location : Location)
    (f : Folder) : (f.mapFiles rule).hasFolder location = f.hasFolder location := by
  rw [hasFolder, hasFolder, node?_mapFiles]
  cases f.node? location with
  | none => rfl
  | some node => cases node <;> rfl

theorem WellFormed.mapFiles {f : Folder} (h : f.WellFormed) (rule : Location → Bytes → Bytes) :
    (f.mapFiles rule).WellFormed := by
  induction f generalizing rule with
  | empty => exact h
  | file name bytes rest ih =>
      obtain ⟨usable, fresh, further⟩ := h
      exact ⟨usable, by rw [child?_mapFiles, fresh]; rfl, ih further rule⟩
  | folder name inner rest ihInner ihRest =>
      obtain ⟨usable, fresh, within, further⟩ := h
      exact ⟨usable, by rw [child?_mapFiles, fresh]; rfl, ihInner within _, ihRest further rule⟩

/-- Every file is in one of the entries of its folder. -/
theorem exists_of_mem_files {location : Location} {bytes : Bytes}
    (inside : (location, bytes) ∈ f.files) :
    ∃ name below, location = name :: below ∧ f.child? name ≠ none := by
  induction f generalizing location with
  | empty => contradiction
  | file name other rest ih =>
      rcases List.mem_cons.mp inside with same | later
      · obtain ⟨rfl, -⟩ := Prod.mk.inj same
        exact ⟨name, [], rfl, by simp [child?]⟩
      · obtain ⟨found, below, rfl, present⟩ := ih later
        refine ⟨found, below, rfl, ?_⟩
        rw [child?]
        split
        · simp
        · exact present
  | folder name inner rest _ ih =>
      rcases List.mem_append.mp inside with within | later
      · obtain ⟨⟨below, other⟩, -, same⟩ := List.mem_map.mp within
        obtain ⟨rfl, -⟩ := Prod.mk.inj same
        exact ⟨name, below, rfl, by simp [child?]⟩
      · obtain ⟨found, below, rfl, present⟩ := ih later
        refine ⟨found, below, rfl, ?_⟩
        rw [child?]
        split
        · simp
        · exact present

/-- No file is in an entry of a name that no entry has. -/
theorem exists_ne_of_mem_files {location : Location} {name : String} {bytes : Bytes}
    (inside : (location, bytes) ∈ f.files) (fresh : f.child? name = none) :
    ∃ found below, location = found :: below ∧ name ≠ found := by
  obtain ⟨found, below, rfl, present⟩ := exists_of_mem_files inside
  refine ⟨found, below, rfl, ?_⟩
  rintro rfl
  exact present fresh

theorem ne_of_mem_files {location below : Location} {name : String} {bytes : Bytes}
    (inside : (location, bytes) ∈ f.files) (fresh : f.child? name = none) :
    location ≠ name :: below := by
  obtain ⟨found, rest, rfl, different⟩ := exists_ne_of_mem_files inside fresh
  intro same
  exact different (List.cons.inj same).1.symm

/-- In a well-formed folder writing reaches one file and leaves all others alone. -/
theorem write_eq_mapFiles (h : f.WellFormed) (location : Location) (bytes : Bytes) :
    f.write location bytes =
      f.mapFiles fun other old => if other = location then bytes else old := by
  induction f generalizing location with
  | empty => rfl
  | file name old rest ih =>
      obtain ⟨-, fresh, further⟩ := h
      by_cases here : location = [name]
      · have others : rest.mapFiles (fun other old => if other = location then bytes else old) =
            rest.mapFiles fun _ old => old :=
          mapFiles_congr fun file inside => if_neg (here ▸ ne_of_mem_files inside fresh)
        rw [write, if_pos here, mapFiles, others, mapFiles_same, if_pos here.symm]
      · rw [write, if_neg here, mapFiles, if_neg (Ne.symm here), ih further]
  | folder name inner rest ihInner ihRest =>
      obtain ⟨-, fresh, within, further⟩ := h
      cases location with
      | nil =>
          have inner_kept : inner.mapFiles
              (fun below old => if name :: below = [] then bytes else old) = inner := by
            simpa using mapFiles_same inner
          have rest_kept : rest.mapFiles (fun other old => if other = [] then bytes else old) =
              rest.mapFiles fun _ old => old := by
            apply mapFiles_congr
            intro file inside
            obtain ⟨found, below, named, -⟩ := exists_of_mem_files inside
            simp [named]
          rw [write, mapFiles, inner_kept, rest_kept, mapFiles_same]
      | cons first below =>
          by_cases here : first = name
          · subst here
            have others : rest.mapFiles
                (fun other old => if other = first :: below then bytes else old) =
                rest.mapFiles fun _ old => old :=
              mapFiles_congr fun file inside => if_neg (ne_of_mem_files inside fresh)
            simp only [write, if_true, mapFiles, others, mapFiles_same, ihInner within,
              List.cons.injEq, true_and]
          · have inner_kept : inner.mapFiles
                (fun other old => if name :: other = first :: below then bytes else old) =
                inner := by
              simpa [Ne.symm here] using mapFiles_same inner
            rw [write, if_neg here, mapFiles, inner_kept, ihRest further]

/-- In a well-formed folder each file stands at its location. -/
theorem node?_of_mem_files (h : f.WellFormed) {location : Location} {bytes : Bytes}
    (inside : (location, bytes) ∈ f.files) : f.node? location = some (.file bytes) := by
  induction f generalizing location with
  | empty => contradiction
  | file name other rest ih =>
      obtain ⟨-, fresh, further⟩ := h
      rcases List.mem_cons.mp inside with same | later
      · obtain ⟨rfl, rfl⟩ := Prod.mk.inj same
        simp [node?, child?]
      · obtain ⟨found, below, rfl, different⟩ := exists_ne_of_mem_files later fresh
        have stands := ih further later
        rwa [node?, child?, if_neg different]
  | folder name inner rest ihInner ihRest =>
      obtain ⟨-, fresh, within, further⟩ := h
      rcases List.mem_append.mp inside with nested | later
      · obtain ⟨⟨below, other⟩, listed, same⟩ := List.mem_map.mp nested
        obtain ⟨rfl, rfl⟩ := Prod.mk.inj same
        simpa [node?, child?] using ihInner within listed
      · obtain ⟨found, below, rfl, different⟩ := exists_ne_of_mem_files later fresh
        have stands := ihRest further later
        rwa [node?, child?, if_neg different]

/-- Every file that a location leads to is listed. -/
theorem mem_files_of_node? {location : Location} {bytes : Bytes}
    (stands : f.node? location = some (.file bytes)) : (location, bytes) ∈ f.files := by
  induction f generalizing location with
  | empty => cases location <;> simp [node?, child?] at stands
  | file name other rest ih =>
      cases location with
      | nil => simp [node?] at stands
      | cons first below =>
          rw [node?, child?] at stands
          by_cases here : name = first
          · obtain ⟨rfl, rfl⟩ : below = [] ∧ other = bytes := by simpa [here] using stands
            exact here ▸ List.mem_cons_self
          · rw [if_neg here] at stands
            exact List.mem_cons_of_mem _ (ih stands)
  | folder name inner rest ihInner ihRest =>
      cases location with
      | nil => simp [node?] at stands
      | cons first below =>
          rw [node?, child?] at stands
          by_cases here : name = first
          · rw [if_pos here] at stands
            apply List.mem_append_left
            exact List.mem_map.mpr ⟨(below, bytes), ihInner stands, by rw [here]⟩
          · rw [if_neg here] at stands
            exact List.mem_append_right _ (ihRest stands)

/-- The listed files are those that a location leads to. -/
theorem mem_files_iff (h : f.WellFormed) {location : Location} {bytes : Bytes} :
    (location, bytes) ∈ f.files ↔ f.node? location = some (.file bytes) :=
  ⟨node?_of_mem_files h, mem_files_of_node?⟩

/-- In a well-formed folder no location is listed twice. -/
theorem nodup_files (h : f.WellFormed) : (f.files.map Prod.fst).Nodup := by
  induction f with
  | empty => exact List.nodup_nil
  | file name bytes rest ih =>
      obtain ⟨-, fresh, further⟩ := h
      rw [files, List.map_cons, List.nodup_cons]
      refine ⟨?_, ih further⟩
      rw [List.mem_map]
      rintro ⟨⟨location, other⟩, inside, same⟩
      exact ne_of_mem_files inside fresh same
  | folder name inner rest ihInner ihRest =>
      obtain ⟨-, fresh, within, further⟩ := h
      have locations : (folder name inner rest).files.map Prod.fst =
          (inner.files.map Prod.fst).map (name :: ·) ++ rest.files.map Prod.fst := by
        simp only [files, List.map_append, List.map_map]
        rfl
      rw [locations, List.nodup_append]
      refine ⟨?_, ihRest further, ?_⟩
      · apply List.Pairwise.map (name :: ·) _ (ihInner within)
        exact fun _ _ different same => different (List.cons.inj same).2
      · intro location nested other listed
        obtain ⟨below, -, rfl⟩ := List.mem_map.mp nested
        obtain ⟨⟨found, bytes⟩, inside, rfl⟩ := List.mem_map.mp listed
        exact (ne_of_mem_files inside fresh).symm

theorem isEntryName_of_mem_files (h : f.WellFormed) {location : Location} {bytes : Bytes}
    (inside : (location, bytes) ∈ f.files) : ∀ name ∈ location, isEntryName name = true := by
  induction f generalizing location bytes with
  | empty => contradiction
  | file name other rest ih =>
      obtain ⟨usable, -, further⟩ := h
      rcases List.mem_cons.mp inside with same | later
      · obtain ⟨rfl, -⟩ := Prod.mk.inj same
        simpa using usable
      · exact ih further later
  | folder name inner rest ihInner ihRest =>
      obtain ⟨usable, -, within, further⟩ := h
      rcases List.mem_append.mp inside with nested | later
      · obtain ⟨⟨below, other⟩, listed, same⟩ := List.mem_map.mp nested
        obtain ⟨rfl, -⟩ := Prod.mk.inj same
        intro part among
        rcases List.mem_cons.mp among with rfl | deeper
        · exact usable
        · exact ihInner within listed part deeper
      · exact ihRest further later

/-- What stands below a location is found from the folder that stands there. -/
theorem node?_append (location below : Location) (f : Folder) :
    f.node? (location ++ below) =
      match f.node? location with
      | some (.folder inner) => inner.node? below
      | some (.file bytes) => if below = [] then some (.file bytes) else none
      | none => none := by
  induction location generalizing f with
  | nil => rfl
  | cons name rest ih =>
      rw [List.cons_append, node?, node?]
      cases f.child? name with
      | none => rfl
      | some node =>
          cases node with
          | folder inner => exact ih inner
          | file bytes => by_cases last : rest = [] <;> simp [last]

theorem WellFormed.of_node? {inner : Folder} {location : Location} (h : f.WellFormed)
    (found : f.node? location = some (.folder inner)) : inner.WellFormed := by
  induction location generalizing f with
  | nil =>
      obtain rfl : f = inner := by simpa [node?] using found
      exact h
  | cons name rest ih =>
      rw [node?] at found
      cases child : f.child? name with
      | none => simp [child] at found
      | some node =>
          cases node with
          | folder deeper =>
              have deeper_formed : deeper.WellFormed := h.of_child? child
              exact ih deeper_formed (by simpa [child] using found)
          | file bytes => simp [child] at found

end Folder

end AttributeLists
