/-
# The lines of a text, told without a reader

`Text.InLines` says what it means that a text stands in lines: no line holds a break in its
text, every line but the last is ended by one, a carriage return and a line feed after it
make one break and not two, and a line that nothing ends shows at least one glyph. There is
exactly one way to see a text so, and the reader of lines finds it.
-/

import AttributeLists.Proofs.Text.Lines

namespace AttributeLists

/-- The text stands in these lines. -/
inductive Text.InLines : Text → List Line → Prop
  | nil : InLines [] []
  | unfinished {text : Text} (nonempty : text ≠ [])
      (unbroken : ∀ g ∈ text, g.isLineBreak = false) : InLines text [⟨text, .unfinished⟩]
  | cons {l : Line} {rest : Text} {lines : List Line}
      (unbroken : ∀ g ∈ l.text, g.isLineBreak = false) (ended : l.ending ≠ .unfinished)
      (paired : l.ending = .cr → rest.head? ≠ some (.char '\n')) (later : InLines rest lines) :
      InLines (l.render ++ rest) (l :: lines)

namespace LineEnding

theorem read_text_append {ending : LineEnding} {rest : Text} (ended : ending ≠ .unfinished)
    (paired : ending = .cr → rest.head? ≠ some (.char '\n')) :
    read (ending.text ++ rest) = (ending, rest) := by
  cases ending with
  | unfinished => contradiction
  | crlf => rfl
  | lf => rfl
  | cr =>
      have single := paired rfl
      cases rest with
      | nil => rfl
      | cons g rest =>
          have other : g ≠ .char '\n' := by simpa using single
          simp [text, read, other]

theorem head?_read_of_cr {t : Text} (ending : (read t).1 = .cr) :
    (read t).2.head? ≠ some (.char '\n') := by
  revert ending
  unfold read
  split
  · exact nofun
  · rename_i rest single
    intro _ first
    obtain ⟨more, rfl⟩ := List.head?_eq_some_iff.mp first
    exact single more rfl
  · exact nofun
  · exact nofun

theorem exists_break_text {ending : LineEnding} (ended : ending ≠ .unfinished) :
    ∃ g rest, ending.text = g :: rest ∧ g.isLineBreak = true := by
  cases ending with
  | unfinished => contradiction
  | crlf => exact ⟨_, _, rfl, rfl⟩
  | cr => exact ⟨_, _, rfl, rfl⟩
  | lf => exact ⟨_, _, rfl, rfl⟩

end LineEnding

namespace Line

theorem read_render_append {l : Line} {rest : Text}
    (unbroken : ∀ g ∈ l.text, g.isLineBreak = false) (ended : l.ending ≠ .unfinished)
    (paired : l.ending = .cr → rest.head? ≠ some (.char '\n')) :
    read (l.render ++ rest) = (l, rest) := by
  obtain ⟨g, more, broken, breaks⟩ := LineEnding.exists_break_text ended
  have ending := LineEnding.read_text_append ended paired
  rw [broken] at ending
  rw [render, List.append_assoc, broken, List.cons_append, read_of_isLineBreak unbroken breaks,
    ← List.cons_append, ending]

theorem head?_read_of_cr {t : Text} (ending : (read t).1.ending = .cr) :
    (read t).2.head? ≠ some (.char '\n') :=
  LineEnding.head?_read_of_cr ending

end Line

namespace Text

theorem lines_of_ne_nil {t : Text} (nonempty : t ≠ []) :
    t.lines = (Line.read t).1 :: (Line.read t).2.lines := by
  cases t with
  | nil => contradiction
  | cons g t => rw [lines]

theorem InLines.eq_lines {t : Text} {lines : List Line} (divided : t.InLines lines) :
    lines = t.lines := by
  induction divided with
  | nil => rw [Text.lines]
  | @unfinished text nonempty unbroken =>
      have taken : text.takeWhile (!·.isLineBreak) = text := by
        rw [List.takeWhile_eq_self_iff]
        simpa using unbroken
      have dropped : text.dropWhile (!·.isLineBreak) = [] := by
        rw [List.dropWhile_eq_nil_iff]
        simpa using unbroken
      have stands : Line.read text = (⟨text, .unfinished⟩, []) := by
        rw [Line.read, taken, dropped]
        rfl
      rw [lines_of_ne_nil nonempty, stands, Text.lines]
  | @cons l rest lines unbroken ended paired later ih =>
      have read := Line.read_render_append unbroken ended paired
      have nonempty : l.render ++ rest ≠ [] := by
        obtain ⟨g, more, broken, -⟩ := LineEnding.exists_break_text ended
        simp [Line.render, broken]
      rw [lines_of_ne_nil nonempty, read, ih]

theorem inLines_lines (t : Text) : t.InLines t.lines := by
  fun_induction lines t with
  | case1 => exact .nil
  | case2 g rest ih =>
      have whole := Line.render_append_read (g :: rest)
      have unbroken := Line.isLineBreak_of_mem_text_read (g :: rest)
      have nothing := @Line.read_eq_nil_of_unfinished (g :: rest)
      have paired := @Line.head?_read_of_cr (g :: rest)
      generalize Line.read (g :: rest) = stood at whole unbroken nothing paired ih ⊢
      rcases stood with ⟨l, after⟩
      by_cases ended : l.ending = .unfinished
      · rcases l with ⟨text, ending⟩
        obtain rfl : ending = .unfinished := ended
        obtain rfl : after = [] := nothing rfl
        obtain rfl : text = g :: rest := by simpa [Line.render, LineEnding.text] using whole
        rw [lines]
        exact .unfinished (List.cons_ne_nil g rest) unbroken
      · rw [← whole]
        exact .cons unbroken ended paired ih

/-- A text stands in the lines that are read, and in no others. -/
theorem inLines_iff {t : Text} {lines : List Line} : t.InLines lines ↔ lines = t.lines := by
  constructor
  · exact InLines.eq_lines
  · rintro rfl
    exact inLines_lines t

end Text

end AttributeLists
