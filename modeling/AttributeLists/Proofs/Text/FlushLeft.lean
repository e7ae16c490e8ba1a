/-
# Lines without indentation

Where the blanks at the start of every line are taken off, blank lines go with them,
since a line break is a blank as well. So texts that differ only in their blank lines
come out the same. Inside a text this is a respacing, as the break of the line before
stays.
-/

import AttributeLists.Proofs.Text.Lines
import AttributeLists.Proofs.Text.Respaced

namespace AttributeLists

namespace Glyph

theorem isBlank_of_isLineBreak {g : Glyph} (breaks : g.isLineBreak = true) :
    g.isBlank = true := by
  cases g with
  | stray byte high => contradiction
  | char c =>
      simp only [isLineBreak, satisfies_char, Bool.or_eq_true, beq_iff_eq] at breaks
      rcases breaks with rfl | rfl <;> rfl

theorem isLineBreak_of_shows {g : Glyph} (shows : g.isBlank = false) :
    g.isLineBreak = false := by
  rw [← Bool.not_eq_true]
  intro breaks
  rw [isBlank_of_isLineBreak breaks] at shows
  contradiction

end Glyph

namespace Text

/-- The text without the blanks at the start of its lines. It starts a line itself if
`fresh` is set. -/
def flushLeft : Bool → Text → Text
  | _, [] => []
  | true, g :: t => if g.isBlank then flushLeft true t else g :: flushLeft false t
  | false, g :: t => g :: flushLeft g.isLineBreak t

@[simp]
theorem flushLeft_nil (fresh : Bool) : flushLeft fresh [] = [] := by
  cases fresh <;> rfl

theorem flushLeft_cons_of_shows {g : Glyph} (shows : g.isBlank = false) (fresh : Bool)
    (t : Text) : flushLeft fresh (g :: t) = g :: flushLeft false t := by
  cases fresh with
  | true => simp [flushLeft, shows]
  | false => rw [flushLeft, Glyph.isLineBreak_of_shows shows]

theorem flushLeft_append_of_isBlank {run : Text} (blank : run.isBlank = true) (t : Text) :
    flushLeft true (run ++ t) = flushLeft true t := by
  induction run with
  | nil => rfl
  | cons g run ih =>
      rw [isBlank_cons_iff] at blank
      rw [List.cons_append, flushLeft, if_pos blank.1, ih blank.2]

/-- Up to a glyph that shows something, a text is dealt with on its own. -/
theorem flushLeft_append_cons {g : Glyph} (shows : g.isBlank = false) (fresh : Bool)
    (front t : Text) :
    flushLeft fresh (front ++ g :: t) = flushLeft fresh front ++ g :: flushLeft false t := by
  induction front generalizing fresh with
  | nil => rw [flushLeft_nil, List.nil_append, List.nil_append, flushLeft_cons_of_shows shows]
  | cons h front ih =>
      cases fresh with
      | true =>
          by_cases blank : h.isBlank = true
          · simp [flushLeft, blank, ih]
          · simp [flushLeft, blank, ih]
      | false => simp [flushLeft, ih]

/-- Up to the end of a line, a text is dealt with on its own. -/
theorem flushLeft_append_break {g : Glyph} (breaks : g.isLineBreak = true) (fresh : Bool)
    (front t : Text) :
    flushLeft fresh (front ++ g :: t) =
      flushLeft fresh (front ++ [g]) ++ flushLeft true t := by
  have blank := Glyph.isBlank_of_isLineBreak breaks
  induction front generalizing fresh with
  | nil => cases fresh <;> simp [flushLeft, breaks, blank]
  | cons h front ih =>
      cases fresh with
      | true =>
          by_cases h_blank : h.isBlank = true
          · simp [flushLeft, h_blank, ih]
          · simp [flushLeft, h_blank, ih]
      | false => simp [flushLeft, ih]

theorem flushLeft_append_of_unbroken {front : Text}
    (unbroken : ∀ g ∈ front, g.isLineBreak = false) (t : Text) :
    flushLeft false (front ++ t) = front ++ flushLeft false t := by
  induction front with
  | nil => rfl
  | cons g front ih =>
      rw [List.cons_append, flushLeft, unbroken g List.mem_cons_self,
        ih fun h inside => unbroken h (List.mem_cons_of_mem g inside), List.cons_append]

theorem flushLeft_sublist (fresh : Bool) (t : Text) : (flushLeft fresh t).Sublist t := by
  induction t generalizing fresh with
  | nil => simp
  | cons g t ih =>
      cases fresh with
      | true =>
          rw [flushLeft]
          split
          · exact (ih true).cons g
          · exact (ih false).cons_cons g
      | false => exact (ih g.isLineBreak).cons_cons g

/-- The second part carries the induction over the blanks after a line break: any run of
blanks in front makes up for those that are taken off. -/
private theorem respaced_flushLeft_of_run (t : Text) :
    Respaced t (flushLeft false t) ∧
      ∀ (run : Text) (g : Glyph), run ≠ [] → run.isBlank = true → g.isBlank = true →
        Respaced (run ++ t) (g :: flushLeft true t) := by
  have single {g : Glyph} (blank : g.isBlank = true) : isBlank [g] = true := by
    simpa [isBlank] using blank
  induction t with
  | nil =>
      refine ⟨.refl [], fun run g nonempty run_blank g_blank => ?_⟩
      exact .run nonempty run_blank (List.cons_ne_nil g []) (single g_blank) (.refl [])
  | cons h t ih =>
      rcases ih with ⟨stays, after_run⟩
      constructor
      · cases breaks : h.isLineBreak with
        | true =>
            have blank := Glyph.isBlank_of_isLineBreak breaks
            rw [flushLeft, breaks]
            exact after_run [h] h (List.cons_ne_nil h []) (single blank) blank
        | false =>
            rw [flushLeft, breaks]
            exact stays.glyph h
      · intro run g nonempty run_blank g_blank
        by_cases blank : h.isBlank = true
        · have run_blank_longer : isBlank (run ++ [h]) = true := by
            simp [run_blank, single blank]
          have longer := after_run (run ++ [h]) g (by simp) run_blank_longer g_blank
          simpa [flushLeft, blank] using longer
        · simp only [flushLeft, blank, if_false, Bool.false_eq_true]
          exact .run nonempty run_blank (List.cons_ne_nil g []) (single g_blank) (stays.glyph h)

/-- Inside a text only the length of blank runs changes. -/
theorem respaced_flushLeft (t : Text) : Respaced t (flushLeft false t) :=
  (respaced_flushLeft_of_run t).1

end Text

namespace Line

theorem flushLeft_render_append {l : Line} (finished : l.ending ≠ .unfinished) (t : Text) :
    Text.flushLeft true (l.render ++ t) =
      Text.flushLeft true l.render ++ Text.flushLeft true t := by
  have last : ∃ front g, l.ending.text = front ++ [g] ∧ g.isLineBreak = true := by
    cases ending : l.ending with
    | crlf => exact ⟨[.char '\r'], .char '\n', rfl, rfl⟩
    | cr => exact ⟨[], .char '\r', rfl, rfl⟩
    | lf => exact ⟨[], .char '\n', rfl, rfl⟩
    | unfinished => exact absurd ending finished
  rcases last with ⟨front, g, ending, breaks⟩
  have split := Text.flushLeft_append_break breaks true (l.text ++ front) t
  simpa [render, ending] using split

theorem isBlank_render {l : Line} (blank : l.isBlank = true) : l.render.isBlank = true := by
  rcases l with ⟨text, ending⟩
  rw [render, Text.isBlank_append]
  simp only [isBlank] at blank
  cases ending <;> simp [blank] <;> rfl

end Line

end AttributeLists
