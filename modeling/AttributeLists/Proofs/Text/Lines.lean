/-
# Lines of a text in two parts

Where a line feed ends the first part of a text, no line reaches from there into the
second part: not even a line ending, since a line feed is always the last glyph of
its own. So the lines of the whole are those of the parts.
-/

import Mathlib.Data.List.TakeWhile
import AttributeLists.Text.Line
import AttributeLists.Proofs.Text.LeadingRun

namespace AttributeLists

/-- The text is empty, or a line feed is its last glyph. -/
def Text.EndsLine (t : Text) : Prop :=
  ∀ g ∈ t.getLast?, g = .char '\n'

namespace Text

theorem EndsLine.of_append {front back : Text} (ends : EndsLine (front ++ back)) :
    EndsLine back := by
  intro g last
  apply ends g
  rw [List.getLast?_append, Option.mem_def.mp last]
  rfl

end Text

namespace LineEnding

theorem read_append {g : Glyph} {t : Text} (breaks : g.isLineBreak = true)
    (ends : Text.EndsLine (g :: t)) (rest : Text) :
    read (g :: t ++ rest) = ((read (g :: t)).1, (read (g :: t)).2 ++ rest) := by
  cases g with
  | stray byte high => contradiction
  | char c =>
      simp only [Glyph.isLineBreak, Glyph.satisfies_char, Bool.or_eq_true, beq_iff_eq] at breaks
      rcases breaks with rfl | rfl
      · cases t with
        | nil =>
            have := ends (.char '\r') rfl
            contradiction
        | cons next t =>
            by_cases feed : next = .char '\n'
            · subst feed
              rfl
            · simp [read, feed]
      · rfl

end LineEnding

namespace Line

theorem length_text_lt {l : Line} (finished : l.ending ≠ .unfinished) :
    l.text.length < l.length := by
  rcases l with ⟨text, ending⟩
  cases ending with
  | unfinished => contradiction
  | _ => simp [length, render, LineEnding.text]

theorem read_of_isLineBreak {front rest : Text} {g : Glyph}
    (inside : ∀ other ∈ front, other.isLineBreak = false) (breaks : g.isLineBreak = true) :
    read (front ++ g :: rest) =
      (⟨front, (LineEnding.read (g :: rest)).1⟩, (LineEnding.read (g :: rest)).2) := by
  have taken : (front ++ g :: rest).takeWhile (!·.isLineBreak) = front :=
    Text.takeWhile_append_of_head? (by simpa using inside) (by simpa using breaks)
  have dropped : (front ++ g :: rest).dropWhile (!·.isLineBreak) = g :: rest :=
    Text.dropWhile_append_of_head? (by simpa using inside) (by simpa using breaks)
  rw [read, taken, dropped]

theorem exists_break_of_endsLine {t : Text} (nonempty : t ≠ []) (ends : t.EndsLine) :
    ∃ front g rest, t = front ++ g :: rest ∧ g.isLineBreak = true ∧
      ∀ other ∈ front, other.isLineBreak = false := by
  have broken : t.dropWhile (!·.isLineBreak) ≠ [] := by
    intro unbroken
    have last := ends _ (List.getLast?_eq_some_getLast nonempty)
    have inside := List.getLast_mem nonempty
    rw [last] at inside
    exact absurd (List.dropWhile_eq_nil_iff.mp unbroken _ inside) (by decide)
  obtain ⟨g, rest, dropped⟩ := List.exists_cons_of_ne_nil broken
  obtain ⟨stops, whole⟩ := Text.of_dropWhile_eq_cons dropped
  refine ⟨t.takeWhile (!·.isLineBreak), g, rest, whole.symm, by simpa using stops, ?_⟩
  intro other inside
  simpa using Text.mem_takeWhile_eq_true t other inside

theorem isLineBreak_of_mem_text_read (t : Text) :
    ∀ g ∈ (read t).1.text, g.isLineBreak = false := by
  intro g inside
  have taken := Text.mem_takeWhile_eq_true t g inside
  simpa using taken

theorem read_eq_nil_of_unfinished {t : Text} (unfinished : (read t).1.ending = .unfinished) :
    (read t).2 = [] := by
  simp only [read] at unfinished ⊢
  cases dropped : t.dropWhile (!·.isLineBreak) with
  | nil => rfl
  | cons g rest =>
      have stops := (Text.of_dropWhile_eq_cons dropped).1
      rw [dropped] at unfinished
      have ended := LineEnding.text_read_ne_nil (by simpa using stops) rest
      rw [unfinished] at ended
      contradiction

theorem read_append {t : Text} (nonempty : t ≠ []) (ends : t.EndsLine) (rest : Text) :
    read (t ++ rest) = ((read t).1, (read t).2 ++ rest) := by
  obtain ⟨front, g, after, rfl, breaks, inside⟩ := exists_break_of_endsLine nonempty ends
  rw [List.append_assoc, List.cons_append, read_of_isLineBreak inside breaks,
    read_of_isLineBreak inside breaks, ← List.cons_append,
    LineEnding.read_append breaks (Text.EndsLine.of_append ends)]

end Line

namespace Text

theorem lines_append {first : Text} (ends : first.EndsLine) (second : Text) :
    lines (first ++ second) = lines first ++ lines second := by
  fun_induction lines first with
  | case1 => rfl
  | case2 g rest ih =>
      have whole := Line.render_append_read (g :: rest)
      have later : EndsLine (Line.read (g :: rest)).2 := EndsLine.of_append (whole.symm ▸ ends)
      rw [List.cons_append, lines, ← List.cons_append,
        Line.read_append (List.cons_ne_nil g rest) ends, ih later, List.cons_append]

/-- Only the last line of a text can be unfinished. -/
theorem ending_ne_unfinished (t : Text) : ∀ l ∈ t.lines.dropLast, l.ending ≠ .unfinished := by
  fun_induction lines t with
  | case1 => simp
  | case2 g rest ih =>
      intro l inside unfinished
      cases later : lines (Line.read (g :: rest)).2 with
      | nil => simp [later] at inside
      | cons next more =>
          rw [later, List.dropLast_cons_cons, List.mem_cons] at inside
          rcases inside with rfl | inside
          · rw [Line.read_eq_nil_of_unfinished unfinished, lines] at later
            contradiction
          · exact ih l (later ▸ inside) unfinished

theorem ending_ne_unfinished_of_endsLine {t : Text} (ends : t.EndsLine) :
    ∀ l ∈ t.lines, l.ending ≠ .unfinished := by
  intro l inside
  -- With a further glyph after it, no line of the text is the last one.
  have more : lines [.char ' '] ≠ [] := by simp [lines]
  have finished := ending_ne_unfinished (t ++ [.char ' '])
  rw [lines_append ends, List.dropLast_append_of_ne_nil more] at finished
  apply finished l
  exact List.mem_append_left _ inside

end Text

end AttributeLists
