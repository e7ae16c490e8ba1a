/-
# Paths

A path is a root and a list of components. Reading a path drops empty components
and those that stay where they are (`.`); components that go up (`..`) are kept,
since what they mean depends on the tree. A path without a leading slash is relative
to the current folder, and every other path starts at the root of the tree. Exactly two
leading slashes are kept as they are written, and any other number of them counts as one.

The written form of a path that was read reads back as the same path. A relative path
without components is written as a single dot.
-/

namespace AttributeLists

/-- Where a path starts. -/
inductive PathRoot
  | relative
  | single
  | double
  deriving DecidableEq

/-- The written form of a root. -/
def PathRoot.text : PathRoot → String
  | relative => ""
  | single => "/"
  | double => "//"

/-- A path through a file tree. -/
structure Path where
  /-- Where the path starts. -/
  root : PathRoot
  /-- The components after the root. -/
  components : List String
  deriving DecidableEq

namespace Path

/-- The root that a written path starts with. -/
def readRoot (chars : List Char) : PathRoot :=
  match (chars.takeWhile (· == '/')).length with
  | 0 => .relative
  | 2 => .double
  | _ => .single

/-- The path that a string writes. -/
def ofString (s : String) : Path where
  root := readRoot s.toList
  components :=
    ((s.toList.splitOn '/').map String.ofList).filter fun component =>
      component != "" && component != "."

/-- The written form of a path. -/
def toString (p : Path) : String :=
  match p with
  | ⟨.relative, []⟩ => "."
  | ⟨root, components⟩ => root.text ++ "/".intercalate components

/-- The path that goes on from another one through further components. -/
def append (p : Path) (components : List String) : Path :=
  { p with components := p.components ++ components }

/-- The path of the current folder. -/
def current : Path :=
  ⟨.relative, []⟩

end Path

end AttributeLists
