/-
# The layout of a source text

A source text is laid out as bracketed lists with gaps before, between and after
them. Each list starts at the first opening bracket that is not yet taken and ends
at the first closing bracket after it; it also takes the spaces and tabs that
follow and, if two slashes stand there, the rest of that line. An opening bracket
that nothing closes stays in the last gap, with everything after it.
-/

import AttributeLists.Listing.Bracketed
import AttributeLists.Text.Line

namespace AttributeLists

/-- A source text as gaps and bracketed lists. -/
structure Layout where
  /-- Each bracketed list after the gap before it. -/
  parts : List (Text × Bracketed)
  /-- What follows the last list. -/
  tail : Text
  deriving DecidableEq

namespace Layout

/-- The source text of a layout. -/
def source (l : Layout) : Text :=
  l.parts.flatMap (fun part => part.1 ++ part.2.source) ++ l.tail

/-- The lists of consecutive parts with the offset at which each one starts, when the
parts start at an offset of their own. -/
def startsFrom (offset : Nat) : List (Text × Bracketed) → List (Nat × Bracketed)
  | [] => []
  | (gap, b) :: rest =>
      let start := offset + gap.length
      (start, b) :: startsFrom (start + b.source.length) rest

/-- The lists of a layout with the offset at which each one starts in the text. -/
def starts (l : Layout) : List (Nat × Bracketed) :=
  startsFrom 0 l.parts

/-- Put a gap and a list in front of a layout. -/
def cons (gap : Text) (b : Bracketed) (l : Layout) : Layout :=
  { l with parts := (gap, b) :: l.parts }

end Layout

/-- A space or a tab. -/
def Glyph.isSpacing : Glyph → Bool :=
  Glyph.satisfies fun c => c == ' ' || c == '\t'

namespace Bracketed

/-- The line comment at the front of a text and what follows it. -/
def readComment (t : Text) : Text × Text :=
  match t with
  | .char '/' :: .char '/' :: _ =>
      (t.takeWhile (!·.isLineBreak), t.dropWhile (!·.isLineBreak))
  | _ => ([], t)

/-- The bracketed list that goes on after an opening bracket, and what follows it. -/
def read? (t : Text) : Option (Bracketed × Text) :=
  match t.dropWhile (· != .char ']') with
  | [] => none
  | _ :: trailing =>
      let (comment, rest) := readComment (trailing.dropWhile Glyph.isSpacing)
      some (⟨t.takeWhile (· != .char ']'), trailing.takeWhile Glyph.isSpacing, comment⟩, rest)

/-- Reading a comment loses nothing. -/
theorem append_readComment (t : Text) : (readComment t).1 ++ (readComment t).2 = t := by
  unfold readComment
  split
  · exact List.takeWhile_append_dropWhile
  · rfl

/-- Reading a list loses nothing after its opening bracket. -/
theorem append_of_read? {t rest : Text} {b : Bracketed} (h : read? t = some (b, rest)) :
    b.source ++ rest = .char '[' :: t := by
  unfold read? at h
  split at h
  · exact absurd h (by simp)
  · rename_i g trailing found
    have closing : g = .char ']' := by
      have head := List.head?_dropWhile_not (· != Glyph.char ']') t
      rw [found] at head
      simpa using head
    subst closing
    have whole : t.takeWhile (· != .char ']') ++ .char ']' :: trailing = t := by
      rw [← found, List.takeWhile_append_dropWhile]
    simp only [Option.some.injEq, Prod.mk.injEq] at h
    obtain ⟨rfl, rfl⟩ := h
    simp only [source, List.cons_append, List.append_assoc, append_readComment,
      List.takeWhile_append_dropWhile, whole]

/-- A list takes at least its closing bracket. -/
theorem length_lt_of_read? {t rest : Text} {b : Bracketed} (h : read? t = some (b, rest)) :
    rest.length < t.length := by
  have sizes := congrArg List.length (append_of_read? h)
  simp only [source, List.length_append, List.length_cons] at sizes
  omega

end Bracketed

namespace Layout

/-- The layout of a text. -/
def ofText (t : Text) : Layout :=
  match _opened : t.dropWhile (· != .char '[') with
  | [] => ⟨[], t⟩
  | _ :: inner =>
      match _found : Bracketed.read? inner with
      | none => ⟨[], t⟩
      | some (b, rest) => (ofText rest).cons (t.takeWhile (· != .char '[')) b
termination_by t.length
decreasing_by
  have shorter := Bracketed.length_lt_of_read? _found
  have suffix := (List.dropWhile_sublist (l := t) (· != .char '[')).length_le
  rw [_opened, List.length_cons] at suffix
  omega

/-- Laying a text out loses nothing. -/
theorem source_ofText (t : Text) : (ofText t).source = t := by
  fun_induction ofText t with
  | case1 t opened => simp [source]
  | case2 t g inner opened unread => simp [source]
  | case3 t g inner opened b rest found ih =>
      have opening : g = .char '[' := by
        have head := List.head?_dropWhile_not (· != Glyph.char '[') t
        rw [opened] at head
        simpa using head
      subst opening
      have whole : (cons (t.takeWhile (· != .char '[')) b (ofText rest)).source =
          t.takeWhile (· != .char '[') ++ (b.source ++ (ofText rest).source) := by
        simp [source, cons]
      rw [whole, ih, Bracketed.append_of_read? found, ← opened,
        List.takeWhile_append_dropWhile]

end Layout

end AttributeLists
