/-
# Short names

An attribute may be named in full, by its last segment only, and with or without
the suffix `Attribute`. The short name is what all these forms share: the last
segment without one such suffix. A segment that is nothing but the suffix keeps
it, so a short name is empty only where the segment is.
-/

import AttributeLists.Text.Blank

namespace AttributeLists

namespace Short

/-- The pieces of a name between its separators `.` and `::`, which are found
from left to right. There is always at least one piece. -/
def segments : Text → List Text
  | [] => [[]]
  | .char '.' :: rest => [] :: segments rest
  | .char ':' :: .char ':' :: rest => [] :: segments rest
  | g :: rest =>
      match segments rest with
      | [] => [[g]]
      | first :: more => (g :: first) :: more

/-- The suffix that a class name carries and its use in a list may leave out. -/
def suffix : Text :=
  Text.ofString "Attribute"

/-- A segment without the suffix, unless nothing else would be left. -/
def withoutSuffix (segment : Text) : Text :=
  match suffix.isSuffixOf? segment with
  | some (g :: stem) => g :: stem
  | _ => segment

end Short

/-- The short name of a name, which may hold blanks. -/
def shortName (name : Text) : Text :=
  Short.withoutSuffix ((Short.segments (name.filter (!·.isBlank))).getLastD [])

end AttributeLists
