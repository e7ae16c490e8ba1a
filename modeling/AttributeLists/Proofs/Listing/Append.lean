/-
# The layout of a text in two parts

A list takes up what trails it on its line but never the line feed. So where a line
feed ends the first part of a text, none of its lists goes on into the second part.
If the first part leaves no opening bracket open either, a scan of the whole finds
the lists of the first part and then those of the second.
-/

import AttributeLists.Proofs.Listing.Scan

namespace AttributeLists

namespace Layout

/-- A layout with more text in front of its first gap. -/
def prepend (front : Text) (l : Layout) : Layout :=
  match l.parts with
  | [] => ⟨[], front ++ l.tail⟩
  | (gap, b) :: rest => ⟨(front ++ gap, b) :: rest, l.tail⟩

/-- Two layouts one after the other. The tail of the first becomes a part of the gap
that follows it. -/
def append (first second : Layout) : Layout :=
  { second.prepend first.tail with
    parts := first.parts ++ (second.prepend first.tail).parts }

theorem append_cons (gap : Text) (b : Bracketed) (first second : Layout) :
    (first.cons gap b).append second = (first.append second).cons gap b := rfl

end Layout

theorem Glyph.isLineBreak_of_isSpacing {g : Glyph} (spacing : g.isSpacing = true) :
    g.isLineBreak = false := by
  cases g with
  | stray byte high => rfl
  | char c =>
      simp only [isSpacing, satisfies_char, Bool.or_eq_true, beq_iff_eq] at spacing
      rcases spacing with rfl | rfl <;> rfl

namespace Bracketed.StandsBefore

variable {b : Bracketed} {rest : Text}

theorem isLineBreak_of_mem_trailing (stands : b.StandsBefore rest) :
    ∀ g ∈ b.space ++ b.comment, g.isLineBreak = false := by
  intro g inside
  rcases List.mem_append.mp inside with spacing | commented
  · apply Glyph.isLineBreak_of_isSpacing
    exact stands.space g spacing
  · rcases stands.comment with ⟨uncommented, -⟩ | ⟨-, unbroken, -⟩
    · rw [uncommented] at commented
      contradiction
    · exact unbroken g commented

/-- A list stops within its line. -/
theorem isLineBreak_of_getLast?_source (stands : b.StandsBefore rest) :
    ∀ g ∈ b.source.getLast?, g.isLineBreak = false := by
  intro g last
  have unbroken := stands.isLineBreak_of_mem_trailing
  have whole : b.source = .char '[' :: (b.body ++ .char ']' :: (b.space ++ b.comment)) := by
    simp [source]
  rw [whole] at last
  rcases List.eq_nil_or_concat (b.space ++ b.comment) with nothing | ⟨before, h, trailing⟩
  · obtain rfl : .char ']' = g := by simpa [nothing, List.getLast?_cons] using last
    rfl
  · rw [trailing] at last unbroken
    obtain rfl : h = g := by simpa [List.getLast?_cons] using last
    exact unbroken h (by simp)

theorem getLast?_rest {gap : Text} (stands : b.StandsBefore rest)
    (ends : (gap ++ (b.source ++ rest)).getLast? = some (.char '\n')) :
    rest.getLast? = some (.char '\n') := by
  rw [List.getLast?_append, List.getLast?_append] at ends
  cases last : rest.getLast? with
  | none =>
      have inside : b.source.getLast? = some (.char '\n') := by
        simpa [last, source] using ends
      exact absurd (stands.isLineBreak_of_getLast?_source _ inside) (by decide)
  | some g => simpa [last] using ends

/-- A list that stands before the first part of a text stands before all of it. -/
theorem append (stands : b.StandsBefore rest) (ends : rest.getLast? = some (.char '\n'))
    (more : Text) : b.StandsBefore (rest ++ more) := by
  obtain ⟨first, rest, rfl⟩ := List.exists_cons_of_ne_nil (by rintro rfl; contradiction : rest ≠ [])
  refine ⟨stands.body, stands.space, ?_, ?_⟩
  · have space_ends := stands.space_ends
    cases comment : b.comment with
    | nil => simpa [comment] using space_ends
    | cons g more => simpa [comment] using space_ends
  · rcases stands.comment with ⟨uncommented, no_slashes⟩ | ⟨start, inside, outside⟩
    · refine .inl ⟨uncommented, ?_⟩
      rintro ⟨after, whole⟩
      obtain ⟨rfl, later⟩ := List.cons.inj whole
      cases rest with
      | nil => exact absurd ends (by decide)
      | cons second rest =>
          obtain ⟨rfl, -⟩ := List.cons.inj later
          exact no_slashes ⟨rest, rfl⟩
    · exact .inr ⟨start, inside, outside⟩

end Bracketed.StandsBefore

namespace LaidOut

theorem prepend {front t : Text} {l : Layout} (closed : .char '[' ∉ front)
    (laid : LaidOut t l) : LaidOut (front ++ t) (l.prepend front) := by
  cases laid with
  | tail unclosed =>
      refine .tail fun before after whole => ?_
      obtain ⟨more, -, rest⟩ := Text.exists_append_of_not_mem closed whole
      exact unclosed more after rest
  | @list gap rest b l gap_closed stands laid =>
      rw [← List.append_assoc]
      refine .list ?_ stands laid
      simp [closed, gap_closed]

theorem getLast?_tail {t : Text} {l : Layout} (ends : t.getLast? = some (.char '\n'))
    (laid : LaidOut t l) : l.tail.getLast? = some (.char '\n') := by
  induction laid with
  | tail unclosed => exact ends
  | @list gap rest b l gap_closed stands laid ih => exact ih (stands.getLast?_rest ends)

theorem append {first second : Text} {l m : Layout} (ends : first.getLast? = some (.char '\n'))
    (closed : .char '[' ∉ l.tail) (laid : LaidOut first l) (laid_second : LaidOut second m) :
    LaidOut (first ++ second) (l.append m) := by
  induction laid with
  | @tail first unclosed => exact laid_second.prepend closed
  | @list gap rest b l gap_closed stands laid ih =>
      have ends_rest := stands.getLast?_rest ends
      rw [List.append_assoc, List.append_assoc, Layout.append_cons]
      exact .list gap_closed (stands.append ends_rest second) (ih ends_rest closed)

end LaidOut

end AttributeLists
