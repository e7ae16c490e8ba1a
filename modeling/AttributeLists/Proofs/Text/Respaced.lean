/-
# Texts that differ only in their blanks

Two texts are respaced if they show the same glyphs in the same order and have their
runs of blanks at the same places. How long a run is and which blanks it is made of
does not matter. At the end of a text a run may be missing in one of the two.
-/

import AttributeLists.Proofs.Text.Shown
import AttributeLists.Proofs.Text.Trim

namespace AttributeLists

namespace Text

/-- The texts are the same but for the makeup of their runs of blanks. -/
inductive Respaced : Text → Text → Prop
  | blank {t u : Text} (first : t.isBlank = true) (second : u.isBlank = true) : Respaced t u
  | glyph (g : Glyph) {t u : Text} (rest : Respaced t u) : Respaced (g :: t) (g :: u)
  | run {a b t u : Text} (first : a ≠ []) (first_blank : a.isBlank = true) (second : b ≠ [])
      (second_blank : b.isBlank = true) (rest : Respaced t u) : Respaced (a ++ t) (b ++ u)

namespace Respaced

variable {t u : Text}

theorem refl (t : Text) : Respaced t t := by
  induction t with
  | nil => exact .blank rfl rfl
  | cons g t ih => exact .glyph g ih

theorem symm (same : Respaced t u) : Respaced u t := by
  induction same with
  | blank first second => exact .blank second first
  | glyph g rest ih => exact .glyph g ih
  | run first first_blank second second_blank rest ih =>
      exact .run second second_blank first first_blank ih

/-- Blanks at the end may go. -/
theorem append_of_isBlank {trail : Text} (blank : trail.isBlank = true) (t : Text) :
    Respaced (t ++ trail) t := by
  induction t with
  | nil => exact .blank blank rfl
  | cons g t ih => exact .glyph g ih

theorem bare_eq (same : Respaced t u) : t.bare = u.bare := by
  induction same with
  | blank first second => rw [bare_eq_nil_iff.mpr first, bare_eq_nil_iff.mpr second]
  | glyph g rest ih => cases shows : g.isBlank <;> simpa [bare, shows] using ih
  | run first first_blank second second_blank rest ih =>
      rw [bare_append, bare_append, bare_eq_nil_iff.mpr first_blank,
        bare_eq_nil_iff.mpr second_blank, ih]

theorem trimStart (same : Respaced t u) : Respaced t.trimStart u.trimStart := by
  induction same with
  | blank first second =>
      rw [trimStart_eq_nil_iff.mpr first, trimStart_eq_nil_iff.mpr second]
      exact refl []
  | @glyph g t u rest ih =>
      cases shows : g.isBlank with
      | true => simpa [Text.trimStart, shows] using ih
      | false => simpa [Text.trimStart, shows] using rest.glyph g
  | run first first_blank second second_blank rest ih =>
      rwa [trimStart_append_of_isBlank first_blank, trimStart_append_of_isBlank second_blank]

/-- A glyph that shows something and starts one of the texts starts both. -/
theorem exists_of_cons {g : Glyph} (shows : g.isBlank = false) (same : Respaced (g :: t) u) :
    ∃ rest, u = g :: rest ∧ Respaced t rest := by
  generalize whole : g :: t = v at same
  cases same with
  | blank first second =>
      subst whole
      simp [isBlank, shows] at first
  | @glyph other t' u rest =>
      obtain ⟨rfl, rfl⟩ := List.cons.inj whole
      exact ⟨u, rfl, rest⟩
  | @run a b t' u first first_blank second second_blank rest =>
      obtain ⟨h, a, rfl⟩ := List.exists_cons_of_ne_nil first
      obtain ⟨rfl, -⟩ := List.cons.inj whole
      simp [isBlank, shows] at first_blank

theorem exists_of_append {front : Text} (shows : ∀ g ∈ front, g.isBlank = false)
    (same : Respaced (front ++ t) u) : ∃ rest, u = front ++ rest ∧ Respaced t rest := by
  induction front generalizing u with
  | nil => exact ⟨u, rfl, same⟩
  | cons g front ih =>
      obtain ⟨later, rfl, tails⟩ := exists_of_cons (shows g List.mem_cons_self) same
      have later_shows : ∀ h ∈ front, h.isBlank = false :=
        fun h inside => shows h (List.mem_cons_of_mem g inside)
      obtain ⟨rest, rfl, rests⟩ := ih later_shows tails
      exact ⟨rest, rfl, rests⟩

/-- Classes without blanks look the same at the front of both texts. -/
theorem head?_eq_false {p : Glyph → Bool} (shown : ∀ g, g.isBlank = true → p g = false)
    (same : Respaced t u) (outside : ∀ g ∈ t.head?, p g = false) :
    ∀ g ∈ u.head?, p g = false := by
  intro g first
  cases blank : g.isBlank with
  | true => exact shown g blank
  | false =>
      obtain ⟨rest, rfl⟩ : ∃ rest, u = g :: rest := List.head?_eq_some_iff.mp first
      obtain ⟨other, rfl, -⟩ := exists_of_cons blank same.symm
      exact outside g rfl

end Respaced

end Text

end AttributeLists
