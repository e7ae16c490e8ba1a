/-
# Qualified names

An identifier starts with an ASCII letter or an underscore and continues with
word characters. A qualified name is one or more identifiers with dots between
them, optionally after `global::`; blanks may stand on both sides of a dot.

The readers take the longest form that stands at the front of a text and return
it with what follows. Since no word character is a blank, a dot or a colon, the
longest form is the only one that the rest of an entry can follow.
-/

import AttributeLists.Text.Blank
import AttributeLists.Text.Word

namespace AttributeLists.Qualified

/-- The identifier at the front of a text, as long as possible. -/
def readIdentifier : Text → Option (Text × Text)
  | [] => none
  | g :: rest =>
      if g.startsIdentifier then
        some (g :: rest.takeWhile Glyph.isWord, rest.dropWhile Glyph.isWord)
      else none

/-- A dot and an identifier at the front of a text, with blanks allowed before
and after the dot. -/
def readSegment (t : Text) : Option (Text × Text) :=
  match t.trimStart with
  | .char '.' :: dotted =>
      (readIdentifier (Text.trimStart dotted)).map fun (identifier, rest) =>
        (t.takeWhile Glyph.isBlank ++ .char '.' ::
          (dotted.takeWhile Glyph.isBlank ++ identifier), rest)
  | _ => none

/-- Reading an identifier loses nothing. -/
theorem append_of_readIdentifier {t identifier rest : Text}
    (h : readIdentifier t = some (identifier, rest)) : identifier ++ rest = t := by
  cases t with
  | nil => simp [readIdentifier] at h
  | cons g more =>
      simp only [readIdentifier] at h
      split at h
      · simp only [Option.some.injEq, Prod.mk.injEq] at h
        rw [← h.1, ← h.2, List.cons_append, List.takeWhile_append_dropWhile]
      · exact absurd h (by simp)

/-- Reading a dotted segment loses nothing. -/
theorem append_of_readSegment {t segment rest : Text}
    (h : readSegment t = some (segment, rest)) : segment ++ rest = t := by
  unfold readSegment at h
  split at h
  · rename_i dotted front
    simp only [Option.map_eq_some_iff, Prod.mk.injEq, Prod.exists] at h
    obtain ⟨identifier, more, read, rfl, rfl⟩ := h
    have inner := append_of_readIdentifier read
    simp only [List.append_assoc, List.cons_append]
    rw [inner, Text.takeWhile_append_trimStart, ← front, Text.takeWhile_append_trimStart]
  · exact absurd h (by simp)

/-- A dotted segment takes something from the text. -/
theorem length_lt_of_readSegment {t segment rest : Text}
    (h : readSegment t = some (segment, rest)) : rest.length < t.length := by
  have whole := append_of_readSegment h
  unfold readSegment at h
  split at h
  · simp only [Option.map_eq_some_iff, Prod.mk.injEq, Prod.exists] at h
    obtain ⟨identifier, more, read, rfl, rfl⟩ := h
    have sizes := congrArg List.length whole
    simp only [List.length_append, List.length_cons] at sizes
    omega
  · exact absurd h (by simp)

/-- All dotted segments at the front of a text. -/
def readSegments (t : Text) : Text × Text :=
  match _found : readSegment t with
  | none => ([], t)
  | some (segment, rest) =>
      let (segments, after) := readSegments rest
      (segment ++ segments, after)
termination_by t.length
decreasing_by exact length_lt_of_readSegment _found

/-- The mark of a name that is looked up from the outermost scope. -/
def globalMark : Text :=
  Text.ofString "global::"

/-- The qualified name at the front of a text, as long as possible. The mark, if
it stands there, belongs to the name and an identifier must follow it. -/
def readName (t : Text) : Option (Text × Text) :=
  let (mark, unmarked) :=
    match globalMark.isPrefixOf? t with
    | some after => (globalMark, after)
    | none => ([], t)
  (readIdentifier unmarked).map fun (identifier, rest) =>
    let (segments, after) := readSegments rest
    (mark ++ identifier ++ segments, after)

end AttributeLists.Qualified
