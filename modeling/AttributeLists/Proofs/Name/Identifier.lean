/-
# Identifiers

`IsIdentifier` says what an identifier is, and the reader of identifiers takes the
longest one at the front of a text.
-/

import AttributeLists.Name.Attribute
import AttributeLists.Proofs.Text.LeadingRun
import AttributeLists.Proofs.Text.Shown

namespace AttributeLists.Qualified

/-- A glyph that may start an identifier, and then word characters. -/
def IsIdentifier (t : Text) : Prop :=
  ∃ first more, t = first :: more ∧ first.startsIdentifier = true ∧
    ∀ g ∈ more, g.isWord = true

theorem readIdentifier_eq_some_iff {t identifier rest : Text} :
    readIdentifier t = some (identifier, rest) ↔
      t = identifier ++ rest ∧ IsIdentifier identifier ∧ ∀ g ∈ rest.head?, g.isWord = false := by
  constructor
  · intro read
    refine ⟨(append_of_readIdentifier read).symm, ?_⟩
    cases t with
    | nil => contradiction
    | cons first more =>
        simp only [readIdentifier] at read
        split at read
        · rename_i starts
          simp only [Option.some.injEq, Prod.mk.injEq] at read
          rcases read with ⟨rfl, rfl⟩
          exact ⟨⟨first, _, rfl, starts, Text.mem_takeWhile_eq_true more⟩,
            Text.head?_dropWhile_eq_false more⟩
        · contradiction
  · intro parts
    rcases parts with ⟨rfl, ⟨first, more, rfl, starts, inside⟩, outside⟩
    simp only [List.cons_append, readIdentifier, starts, if_true,
      Text.takeWhile_append_of_head? inside outside, Text.dropWhile_append_of_head? inside outside]

theorem IsIdentifier.isBlank_eq_false {t : Text} (identifier : IsIdentifier t) :
    ∀ g ∈ t, g.isBlank = false := by
  rcases identifier with ⟨first, more, rfl, starts, inside⟩
  intro g member
  rw [← Bool.not_eq_true]
  intro blank
  rcases List.mem_cons.mp member with rfl | later
  · rw [Glyph.startsIdentifier_of_isBlank blank] at starts
    contradiction
  · have word := inside g later
    rw [Glyph.isWord_of_isBlank blank] at word
    contradiction

theorem IsIdentifier.head?_isBlank {t : Text} (identifier : IsIdentifier t) (rest : Text) :
    ∀ g ∈ (t ++ rest).head?, g.isBlank = false := by
  have shows := identifier.isBlank_eq_false
  rcases identifier with ⟨first, more, rfl, -, -⟩
  intro g same
  obtain rfl : first = g := by simpa using same
  exact shows first List.mem_cons_self

/-- An identifier holds no character that neither starts nor continues one. -/
theorem IsIdentifier.ne_char {t : Text} (identifier : IsIdentifier t) {c : Char}
    (unstarting : (Glyph.char c).startsIdentifier = false)
    (unword : (Glyph.char c).isWord = false) : ∀ g ∈ t, g ≠ .char c := by
  rcases identifier with ⟨first, more, rfl, starts, inside⟩
  rintro g member rfl
  rcases List.mem_cons.mp member with rfl | later
  · rw [unstarting] at starts
    contradiction
  · have := inside _ later
    rw [unword] at this
    contradiction

theorem readSegments_of_none {t : Text} (stop : readSegment t = none) :
    readSegments t = ([], t) := by
  rw [readSegments]
  split
  · rfl
  · simp_all

theorem readSegments_of_some {t segment rest : Text}
    (found : readSegment t = some (segment, rest)) :
    readSegments t = (segment ++ (readSegments rest).1, (readSegments rest).2) := by
  rw [readSegments]
  split
  · simp_all
  · rename_i other after other_found
    obtain ⟨rfl, rfl⟩ : other = segment ∧ after = rest := by
      simpa using other_found.symm.trans found
    rfl

theorem append_readSegments (t : Text) : (readSegments t).1 ++ (readSegments t).2 = t := by
  fun_induction readSegments t with
  | case1 t stop => rfl
  | case2 t segment rest found segments after read ih =>
      rw [read] at ih
      rw [List.append_assoc, ih, append_of_readSegment found]

/-- A name is a mark or nothing, then an identifier and the segments that follow it. -/
theorem readName_eq_some_iff {t name rest : Text} :
    readName t = some (name, rest) ↔
      ∃ mark unmarked identifier more,
        (mark = globalMark ∧ t = globalMark ++ unmarked ∨
          mark = [] ∧ t = unmarked ∧ ¬ globalMark <+: t) ∧
        readIdentifier unmarked = some (identifier, more) ∧
        name = mark ++ identifier ++ (readSegments more).1 ∧ rest = (readSegments more).2 := by
  unfold readName
  cases marked : globalMark.isPrefixOf? t with
  | some after =>
      rw [Text.isPrefixOf?_eq_some_iff] at marked
      subst marked
      constructor
      · intro read
        simp only [Option.map_eq_some_iff, Prod.mk.injEq, Prod.exists] at read
        rcases read with ⟨identifier, more, found, rfl, rfl⟩
        exact ⟨globalMark, after, identifier, more, .inl ⟨rfl, rfl⟩, found, rfl, rfl⟩
      · intro parts
        rcases parts with ⟨mark, unmarked, identifier, more, front, found, rfl, rfl⟩
        rcases front with ⟨rfl, whole⟩ | ⟨-, -, unmarked_front⟩
        · obtain rfl := List.append_cancel_left whole
          simp [found]
        · exact absurd ⟨after, rfl⟩ unmarked_front
  | none =>
      have unmarked_front : ¬ globalMark <+: t := by
        rintro ⟨after, rfl⟩
        rw [Text.isPrefixOf?_eq_some_iff.mpr rfl] at marked
        contradiction
      constructor
      · intro read
        simp only [Option.map_eq_some_iff, Prod.mk.injEq, Prod.exists] at read
        rcases read with ⟨identifier, more, found, rfl, rfl⟩
        exact ⟨[], t, identifier, more, .inr ⟨rfl, rfl, unmarked_front⟩, found, rfl, rfl⟩
      · intro parts
        rcases parts with ⟨mark, unmarked, identifier, more, front, found, rfl, rfl⟩
        rcases front with ⟨-, rfl⟩ | ⟨rfl, rfl, -⟩
        · exact absurd ⟨unmarked, rfl⟩ unmarked_front
        · simp [found]

/-- Reading a name loses nothing. -/
theorem append_of_readName {t name rest : Text} (read : readName t = some (name, rest)) :
    name ++ rest = t := by
  obtain ⟨mark, unmarked, identifier, more, marked, found, rfl, rfl⟩ := readName_eq_some_iff.mp read
  rw [List.append_assoc, append_readSegments, List.append_assoc, append_of_readIdentifier found]
  rcases marked with ⟨rfl, rfl⟩ | ⟨rfl, rfl, -⟩ <;> rfl

end AttributeLists.Qualified

namespace AttributeLists

open Qualified

theorem isAttributeName_of_isIdentifier {t : Text} (identifier : IsIdentifier t) :
    isAttributeName t = true := by
  have unmarked : ¬ globalMark <+: t := by
    rintro ⟨rest, rfl⟩
    have colon : Glyph.char ':' ∈ globalMark := by simp [globalMark, Text.ofString]
    exact identifier.ne_char (by decide +kernel) (by decide +kernel) _
      (List.mem_append_left rest colon) rfl
  have read : readIdentifier t = some (t, []) :=
    readIdentifier_eq_some_iff.mpr ⟨(List.append_nil t).symm, identifier, by simp⟩
  have ended : readSegments [] = ([], []) := readSegments_of_none rfl
  have whole : readName t = some (t, []) :=
    readName_eq_some_iff.mpr
      ⟨[], t, t, [], .inr ⟨rfl, rfl, unmarked⟩, read, by simp [ended], by rw [ended]⟩
  have unblank : t.any Glyph.isBlank = false := by
    simpa using identifier.isBlank_eq_false
  rw [isAttributeName, whole, unblank]
  simp

theorem isAttributeName_singleton {c : Char} (starts : (Glyph.char c).startsIdentifier = true) :
    isAttributeName [.char c] = true :=
  isAttributeName_of_isIdentifier ⟨.char c, [], rfl, starts, by simp⟩

end AttributeLists
