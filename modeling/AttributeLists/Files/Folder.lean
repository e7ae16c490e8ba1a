/-
# Folders

A folder is a sequence of named entries, each a file with its bytes or a folder of
its own. In a well-formed folder no two entries of the same folder share a name and
every name can be a component of a path that leads to its entry.

A location is the list of names that leads from a folder down to something in it.
-/

import AttributeLists.Text.Utf8

namespace AttributeLists

/-- The entries of a folder. -/
inductive Folder
  /-- No entries. -/
  | empty
  /-- A file and the entries after it. -/
  | file (name : String) (bytes : Bytes) (rest : Folder)
  /-- A folder and the entries after it. -/
  | folder (name : String) (inner : Folder) (rest : Folder)
  deriving DecidableEq

/-- What a location leads to. -/
inductive Node
  | file (bytes : Bytes)
  | folder (inner : Folder)
  deriving DecidableEq

/-- The names that lead down from a folder. -/
abbrev Location := List String

/-- Whether a location comes before another one: component by component, each by code
points. -/
def Location.precedes (a b : Location) : Bool :=
  List.lex a b fun x y => List.lex x.toList y.toList fun c d => c.toNat < d.toNat

/-- Whether a name can be the name of an entry. -/
def isEntryName (name : String) : Bool :=
  name != "" && name != "." && name != ".." && !name.toList.contains '/' &&
    !name.toList.contains '\x00'

namespace Folder

/-- The entry of a name. -/
def child? (name : String) : Folder → Option Node
  | empty => none
  | file other bytes rest => if other = name then some (.file bytes) else rest.child? name
  | folder other inner rest => if other = name then some (.folder inner) else rest.child? name

/-- What stands at a location. The folder itself stands at the empty one. -/
def node? (f : Folder) : Location → Option Node
  | [] => some (.folder f)
  | name :: rest =>
      match f.child? name with
      | some (.folder inner) => inner.node? rest
      | some (.file bytes) => if rest = [] then some (.file bytes) else none
      | none => none

/-- Whether a folder stands at a location. -/
def hasFolder (f : Folder) (location : Location) : Bool :=
  match f.node? location with
  | some (.folder _) => true
  | _ => false

/-- Every file of the folder at any depth, with its location. -/
def files : Folder → List (Location × Bytes)
  | empty => []
  | file name bytes rest => ([name], bytes) :: rest.files
  | folder name inner rest =>
      inner.files.map (fun (location, bytes) => (name :: location, bytes)) ++ rest.files

/-- Give the file at a location new bytes. Nothing else changes, and nothing at all
if no file stands there. -/
def write (location : Location) (bytes : Bytes) : Folder → Folder
  | empty => empty
  | file name old rest =>
      if location = [name] then file name bytes rest
      else file name old (rest.write location bytes)
  | folder name inner rest =>
      match location with
      | [] => folder name inner rest
      | first :: further =>
          if first = name then folder name (inner.write further bytes) rest
          else folder name inner (rest.write location bytes)

/-- Put an entry in place of the one of its name, or after all others. -/
def put (name : String) (node : Node) : Folder → Folder
  | empty =>
      match node with
      | .file bytes => file name bytes empty
      | .folder inner => folder name inner empty
  | file other bytes rest =>
      if other = name then
        match node with
        | .file bytes => file name bytes rest
        | .folder inner => folder name inner rest
      else file other bytes (rest.put name node)
  | folder other inner rest =>
      if other = name then
        match node with
        | .file bytes => file name bytes rest
        | .folder inner => folder name inner rest
      else folder other inner (rest.put name node)

/-- Names are distinct and usable, at every depth. -/
def WellFormed : Folder → Prop
  | empty => True
  | file name _ rest => isEntryName name = true ∧ rest.child? name = none ∧ rest.WellFormed
  | folder name inner rest =>
      isEntryName name = true ∧ rest.child? name = none ∧ inner.WellFormed ∧ rest.WellFormed

/-- A node is well formed if it is a file or a well-formed folder. -/
def NodeWellFormed : Node → Prop
  | .file _ => True
  | .folder inner => inner.WellFormed

/-- Put a file, or a folder if no bytes are given, at a location. Folders on the way
are made where they are missing. -/
def insert (leaf : Option Bytes) : Location → Folder → Folder
  | [], f => f
  | name :: rest, f =>
      match leaf, rest with
      | some bytes, [] => f.put name (.file bytes)
      | _, _ =>
          match f.child? name with
          | some (.folder inner) => f.put name (.folder (insert leaf rest inner))
          | _ => f.put name (.folder (insert leaf rest empty))

/-- Writing keeps the names of a folder. -/
theorem child?_write_eq_none (location : Location) (bytes : Bytes) (name : String)
    (f : Folder) : (f.write location bytes).child? name = none ↔ f.child? name = none := by
  induction f with
  | empty => simp [write]
  | file other old rest ih =>
      unfold write
      split <;> simp only [child?] <;> split <;> simp_all
  | folder other inner rest _ ih =>
      unfold write
      split
      · rfl
      · split <;> simp only [child?] <;> split <;> simp_all

/-- Writing keeps a folder well formed. -/
theorem WellFormed.write {f : Folder} (h : f.WellFormed) (location : Location)
    (bytes : Bytes) : (f.write location bytes).WellFormed := by
  induction f generalizing location with
  | empty => exact h
  | file other old rest ih =>
      obtain ⟨usable, fresh, further⟩ := h
      unfold Folder.write
      split
      · exact ⟨usable, fresh, further⟩
      · exact ⟨usable, (child?_write_eq_none ..).mpr fresh, ih further location⟩
  | folder other inner rest ihInner ihRest =>
      obtain ⟨usable, fresh, within, further⟩ := h
      unfold Folder.write
      split
      · exact ⟨usable, fresh, within, further⟩
      · split
        · exact ⟨usable, fresh, ihInner within _, further⟩
        · exact ⟨usable, (child?_write_eq_none ..).mpr fresh, within, ihRest further _⟩

theorem hasFolder_iff {f : Folder} {location : Location} :
    f.hasFolder location = true ↔ ∃ inner, f.node? location = some (.folder inner) := by
  unfold hasFolder
  split
  · rename_i inner stands
    simp [stands]
  · rename_i other
    simpa using other

theorem write_nil (bytes : Bytes) (f : Folder) : f.write [] bytes = f := by
  induction f with
  | empty => rfl
  | file name old rest ih => rw [write, if_neg (List.cons_ne_nil _ _).symm, ih]
  | folder name inner rest _ _ => rfl

/-- A folder in a folder is still there after writing, written to if the location leads
through it. -/
theorem exists_child?_write {f inner : Folder} {name : String}
    (found : f.child? name = some (.folder inner)) (location : Location) (bytes : Bytes) :
    ∃ below, (f.write location bytes).child? name = some (.folder (inner.write below bytes)) := by
  cases location with
  | nil => exact ⟨[], by rw [write_nil, write_nil, found]⟩
  | cons first further =>
      induction f with
      | empty => simp [child?] at found
      | file other old rest ih =>
          by_cases same : other = name
          · simp [child?, same] at found
          · rw [child?, if_neg same] at found
            rw [write]
            split <;> simp only [child?, if_neg same]
            · exact ⟨[], by rw [write_nil, found]⟩
            · exact ih found
      | folder other within rest _ ih =>
          rw [write]
          by_cases same : other = name
          · obtain rfl : within = inner := by simpa [child?, same] using found
            split <;> simp only [child?, if_pos same]
            · exact ⟨further, rfl⟩
            · exact ⟨[], by rw [write_nil]⟩
          · rw [child?, if_neg same] at found
            split <;> simp only [child?, if_neg same]
            · exact ⟨[], by rw [write_nil, found]⟩
            · exact ih found

/-- Writing keeps every folder in its place. -/
theorem hasFolder_write {f : Folder} {place : Location} (stands : f.hasFolder place = true)
    (location : Location) (bytes : Bytes) : (f.write location bytes).hasFolder place = true := by
  rw [hasFolder_iff] at stands ⊢
  induction place generalizing f location with
  | nil => exact ⟨_, rfl⟩
  | cons name rest ih =>
      obtain ⟨inner, found⟩ := stands
      rw [node?] at found
      cases entry : f.child? name with
      | none => simp [entry] at found
      | some node =>
          rw [entry] at found
          cases node with
          | file old => by_cases last : rest = [] <;> simp [last] at found
          | folder within =>
              obtain ⟨below, present⟩ := exists_child?_write entry location bytes
              rw [node?, present]
              exact ih ⟨inner, found⟩ below

/-- Putting an entry brings in no other name. -/
theorem child?_put_of_ne {name other : String} (different : name ≠ other) (node : Node)
    (f : Folder) : (f.put name node).child? other = f.child? other := by
  induction f with
  | empty => cases node <;> simp [put, child?, different]
  | file first bytes rest ih =>
      unfold put
      split
      · cases node <;> simp_all [child?]
      · simp only [child?, ih]
  | folder first inner rest _ ih =>
      unfold put
      split
      · cases node <;> simp_all [child?]
      · simp only [child?, ih]

/-- Putting a well-formed entry of a usable name keeps a folder well formed. -/
theorem WellFormed.put {f : Folder} (h : f.WellFormed) {name : String}
    (named : isEntryName name = true) {node : Node} (within : NodeWellFormed node) :
    (f.put name node).WellFormed := by
  induction f with
  | empty =>
      cases node with
      | file bytes => exact ⟨named, rfl, trivial⟩
      | folder inner => exact ⟨named, rfl, within, trivial⟩
  | file first bytes rest ih =>
      obtain ⟨usable, fresh, further⟩ := h
      unfold Folder.put
      split
      · rename_i same
        subst same
        cases node with
        | file bytes => exact ⟨named, fresh, further⟩
        | folder inner => exact ⟨named, fresh, within, further⟩
      · rename_i different
        exact ⟨usable, by rwa [child?_put_of_ne (Ne.symm different)], ih further⟩
  | folder first inner rest _ ih =>
      obtain ⟨usable, fresh, nested, further⟩ := h
      unfold Folder.put
      split
      · rename_i same
        subst same
        cases node with
        | file bytes => exact ⟨named, fresh, further⟩
        | folder inner => exact ⟨named, fresh, within, further⟩
      · rename_i different
        exact ⟨usable, by rwa [child?_put_of_ne (Ne.symm different)], nested, ih further⟩

/-- An entry of a well-formed folder is well formed. -/
theorem WellFormed.of_child? {f : Folder} (h : f.WellFormed) {name : String} {node : Node}
    (found : f.child? name = some node) : NodeWellFormed node := by
  induction f with
  | empty => exact absurd found (by simp [child?])
  | file first bytes rest ih =>
      simp only [child?] at found
      split at found
      · cases found
        trivial
      · exact ih h.2.2 found
  | folder first inner rest _ ih =>
      simp only [child?] at found
      split at found
      · cases found
        exact h.2.2.1
      · exact ih h.2.2.2 found

/-- Inserting along usable names keeps a folder well formed. -/
theorem WellFormed.insert {f : Folder} (h : f.WellFormed) {location : Location}
    (named : ∀ name ∈ location, isEntryName name = true) (leaf : Option Bytes) :
    (f.insert leaf location).WellFormed := by
  induction location generalizing f with
  | nil => exact h
  | cons name rest ih =>
      have first := named name List.mem_cons_self
      have others : ∀ other ∈ rest, isEntryName other = true :=
        fun other mem => named other (List.mem_cons_of_mem name mem)
      unfold Folder.insert
      split
      · exact h.put first trivial
      · split
        · rename_i inner found
          exact h.put first (ih (f := inner) (h.of_child? found) others)
        · exact h.put first (ih (f := .empty) trivial others)

end Folder

end AttributeLists
