/-
# The leading run of a text

`takeWhile` and `dropWhile` cut a text into the glyphs of a class at its front and
what follows. The cut is the only one whose first part lies in the class and whose
second part does not start in it, so a reader can be checked on a text that is
already known in two parts.
-/

import Mathlib.Data.List.Basic
import AttributeLists.Text.Glyph

namespace AttributeLists.Text

variable {p : Glyph → Bool} {run rest : Text}

theorem takeWhile_append_of_head? (inside : ∀ g ∈ run, p g = true)
    (outside : ∀ g ∈ rest.head?, p g = false) : (run ++ rest).takeWhile p = run := by
  rw [List.takeWhile_append_of_pos inside]
  cases rest with
  | nil => simp
  | cons g rest => simp [outside g rfl]

theorem dropWhile_append_of_head? (inside : ∀ g ∈ run, p g = true)
    (outside : ∀ g ∈ rest.head?, p g = false) : (run ++ rest).dropWhile p = rest := by
  rw [List.dropWhile_append_of_pos inside]
  cases rest with
  | nil => simp
  | cons g rest => simp [outside g rfl]

theorem head?_dropWhile_eq_false (t : Text) : ∀ g ∈ (t.dropWhile p).head?, p g = false := by
  intro g first
  have stop := List.head?_dropWhile_not p t
  rw [Option.mem_def.mp first] at stop
  simpa using stop

theorem of_dropWhile_eq_cons {t : Text} {g : Glyph} (dropped : t.dropWhile p = g :: rest) :
    p g = false ∧ t.takeWhile p ++ g :: rest = t := by
  constructor
  · apply head?_dropWhile_eq_false t
    rw [dropped]
    rfl
  · rw [← dropped, List.takeWhile_append_dropWhile]

theorem mem_takeWhile_eq_true (t : Text) : ∀ g ∈ t.takeWhile p, p g = true := by
  intro g inside
  exact List.all_eq_true.mp List.all_takeWhile g inside

theorem isPrefixOf?_eq_some_iff {front t rest : Text} :
    front.isPrefixOf? t = some rest ↔ t = front ++ rest := by
  rw [List.isPrefixOf?_eq_some_iff_append_eq, eq_comm]

/-- A glyph that a text lacks differs from each of its glyphs. -/
theorem bne_of_not_mem {t : Text} {mark : Glyph} (lacking : mark ∉ t) :
    ∀ g ∈ t, (g != mark) = true := by
  intro g inside
  rw [bne_iff_ne]
  rintro rfl
  exact lacking inside

/-- A text that lacks a mark ends before the mark does. -/
theorem exists_append_of_not_mem {front after before rest : Text} {mark : Glyph}
    (lacking : mark ∉ front) (same : front ++ after = before ++ mark :: rest) :
    ∃ more, before = front ++ more ∧ after = more ++ mark :: rest := by
  rcases List.append_eq_append_iff.mp same with ⟨more, rfl, shared⟩ | ⟨more, rfl, shared⟩
  · exact ⟨more, rfl, shared⟩
  · cases more with
    | nil => exact ⟨[], by simp, by simpa using shared.symm⟩
    | cons g more =>
        obtain ⟨rfl, -⟩ := List.cons.inj shared
        exact absurd (by simp) lacking

end AttributeLists.Text
