/-
# Trimming

Trimming takes off exactly the blanks at the two ends: what it leaves is empty or
starts and ends with a glyph that shows, and nothing that shows is lost.
-/

import Mathlib.Data.List.DropRight
import AttributeLists.Proofs.Text.LeadingRun
import AttributeLists.Text.Blank

namespace AttributeLists.Text

/-- The glyphs of a text that show something. -/
def bare (t : Text) : Text :=
  t.filter (!·.isBlank)

theorem isBlank_iff {t : Text} : t.isBlank = true ↔ ∀ g ∈ t, g.isBlank = true :=
  List.all_eq_true

theorem isBlank_cons_iff {g : Glyph} {t : Text} :
    isBlank (g :: t) = true ↔ g.isBlank = true ∧ t.isBlank = true := by
  rw [isBlank, isBlank, List.all_cons, Bool.and_eq_true]

@[simp]
theorem isBlank_append (t u : Text) : isBlank (t ++ u) = (t.isBlank && u.isBlank) :=
  List.all_append

theorem bare_eq_nil_iff {t : Text} : t.bare = [] ↔ t.isBlank = true := by
  simp [bare, isBlank_iff]

@[simp]
theorem bare_append (t u : Text) : bare (t ++ u) = t.bare ++ u.bare :=
  List.filter_append ..

theorem trimEnd_eq_rdropWhile (t : Text) : t.trimEnd = t.rdropWhile Glyph.isBlank := rfl

theorem trimStart_append_of_isBlank {lead : Text} (blank : lead.isBlank = true) (t : Text) :
    trimStart (lead ++ t) = t.trimStart :=
  List.dropWhile_append_of_pos (isBlank_iff.mp blank)

theorem trimStart_eq_self {t : Text} (shows : ∀ g ∈ t.head?, g.isBlank = false) :
    t.trimStart = t := by
  cases t with
  | nil => rfl
  | cons g t => simp [trimStart, shows g rfl]

theorem trimEnd_eq_self {t : Text} (shows : ∀ g ∈ t.getLast?, g.isBlank = false) :
    t.trimEnd = t := by
  rw [trimEnd_eq_rdropWhile, List.rdropWhile_eq_self_iff]
  intro nonempty
  simp [shows _ (List.getLast?_eq_getLast_of_ne_nil nonempty)]

theorem trimStart_eq_nil_iff {t : Text} : t.trimStart = [] ↔ t.isBlank = true := by
  rw [trimStart, List.dropWhile_eq_nil_iff, isBlank_iff]

/-- A text is what trimming leaves of it, between blanks. -/
theorem exists_eq_append_trim (t : Text) :
    ∃ lead trail : Text, lead.isBlank = true ∧ trail.isBlank = true ∧
      t = lead ++ (t.trim ++ trail) := by
  refine ⟨t.takeWhile Glyph.isBlank, t.trimStart.rtakeWhile Glyph.isBlank, ?_, ?_, ?_⟩
  · apply isBlank_iff.mpr
    exact mem_takeWhile_eq_true t
  · exact isBlank_iff.mpr fun g inside => List.mem_rtakeWhile_imp inside
  · rw [trim, trimEnd_eq_rdropWhile, List.rdropWhile_append_rtakeWhile, takeWhile_append_trimStart]

theorem trim_sublist (t : Text) : t.trim.Sublist t := by
  obtain ⟨lead, trail, -, -, whole⟩ := exists_eq_append_trim t
  conv_rhs => rw [whole]
  exact (List.sublist_append_left _ _).trans (List.sublist_append_right _ _)

theorem head?_trimStart (t : Text) : ∀ g ∈ t.trimStart.head?, g.isBlank = false :=
  head?_dropWhile_eq_false t

theorem getLast?_trimEnd (t : Text) : ∀ g ∈ t.trimEnd.getLast?, g.isBlank = false := by
  intro g last
  rw [trimEnd, List.getLast?_reverse] at last
  exact head?_dropWhile_eq_false _ g last

theorem head?_trim (t : Text) : ∀ g ∈ t.trim.head?, g.isBlank = false := by
  intro g first
  apply head?_trimStart t g
  obtain ⟨more, whole⟩ := List.rdropWhile_prefix Glyph.isBlank (l := t.trimStart)
  rw [trim, trimEnd_eq_rdropWhile] at first
  rw [← whole, List.head?_append_of_ne_nil]
  · exact first
  · intro empty
    simp [empty] at first

theorem getLast?_trim (t : Text) : ∀ g ∈ t.trim.getLast?, g.isBlank = false :=
  getLast?_trimEnd t.trimStart

theorem trim_append_of_isBlank {lead : Text} (blank : lead.isBlank = true) (t : Text) :
    trim (lead ++ t) = t.trim := by
  rw [trim, trimStart_append_of_isBlank blank, trim]

/-- A text that shows something at both of its ends is not trimmed further. -/
theorem trim_eq_self {t : Text} (first : ∀ g ∈ t.head?, g.isBlank = false)
    (last : ∀ g ∈ t.getLast?, g.isBlank = false) : t.trim = t := by
  rw [trim, trimStart_eq_self first, trimEnd_eq_self last]

@[simp]
theorem trim_trim (t : Text) : t.trim.trim = t.trim :=
  trim_eq_self (head?_trim t) (getLast?_trim t)

@[simp]
theorem bare_trim (t : Text) : t.trim.bare = t.bare := by
  obtain ⟨lead, trail, lead_blank, trail_blank, whole⟩ := exists_eq_append_trim t
  conv_rhs => rw [whole]
  rw [bare_append, bare_append, bare_eq_nil_iff.mpr lead_blank, bare_eq_nil_iff.mpr trail_blank]
  simp

theorem head?_bare {t : Text} (shows : ∀ g ∈ t.head?, g.isBlank = false) :
    t.bare.head? = t.head? := by
  cases t with
  | nil => rfl
  | cons g t => simp [bare, shows g rfl]

theorem getLast?_bare {t : Text} (shows : ∀ g ∈ t.getLast?, g.isBlank = false) :
    t.bare.getLast? = t.getLast? := by
  rcases List.eq_nil_or_concat t with rfl | ⟨front, g, rfl⟩
  · rfl
  · have last : g.isBlank = false := shows g (by simp)
    simp [bare, last]

theorem trim_eq_nil_iff {t : Text} : t.trim = [] ↔ t.isBlank = true := by
  constructor
  · intro nothing
    rw [← bare_eq_nil_iff, ← bare_trim, nothing]
    rfl
  · intro blank
    rw [trim, trimStart_eq_nil_iff.mpr blank]
    rfl

theorem isEmpty_trim (t : Text) : t.trim.isEmpty = t.isBlank := by
  rw [Bool.eq_iff_iff, List.isEmpty_iff, trim_eq_nil_iff]

end AttributeLists.Text
