/-
# Lines

A line is a text without line breaks together with the break that ends it:
carriage return and line feed as a pair, either one alone, or nothing for an
unfinished last line. Splitting a text into lines keeps every break as it stands,
so that rendering the lines gives the text back.

Only carriage return and line feed end a line here. Other characters that some
formats treat as line separators are ordinary blanks.
-/

import AttributeLists.Text.Blank

namespace AttributeLists

namespace Glyph

/-- Carriage return or line feed. -/
def isLineBreak : Glyph → Bool :=
  satisfies fun c => c == '\r' || c == '\n'

end Glyph

/-- What ends a line. -/
inductive LineEnding
  | crlf
  | cr
  | lf
  /-- The text stops without a line break. -/
  | unfinished
  deriving DecidableEq

namespace LineEnding

/-- The characters of a line ending. -/
def text : LineEnding → Text
  | crlf => [.char '\r', .char '\n']
  | cr => [.char '\r']
  | lf => [.char '\n']
  | unfinished => []

/-- The line ending at the front of a text and what follows it. -/
def read : Text → LineEnding × Text
  | .char '\r' :: .char '\n' :: rest => (crlf, rest)
  | .char '\r' :: rest => (cr, rest)
  | .char '\n' :: rest => (lf, rest)
  | rest => (unfinished, rest)

theorem text_append_read (t : Text) : (read t).1.text ++ (read t).2 = t := by
  unfold read
  split <;> rfl

/-- A line break at the front of a text is read. -/
theorem text_read_ne_nil {g : Glyph} (h : g.isLineBreak = true) (t : Text) :
    (read (g :: t)).1.text ≠ [] := by
  cases g with
  | stray byte high => simp [Glyph.isLineBreak] at h
  | char c =>
      simp only [Glyph.isLineBreak, Glyph.satisfies_char, Bool.or_eq_true, beq_iff_eq] at h
      rcases h with rfl | rfl
      · unfold read
        split <;> simp_all [text]
      · simp [read, text]

end LineEnding

/-- A line of a text. -/
structure Line where
  /-- What stands on the line. -/
  text : Text
  /-- What ends the line. -/
  ending : LineEnding
  deriving DecidableEq

namespace Line

/-- The line as it stands in its text. -/
def render (l : Line) : Text :=
  l.text ++ l.ending.text

/-- The number of glyphs of the line, its ending included. -/
def length (l : Line) : Nat :=
  l.render.length

/-- Whether the line shows nothing. -/
def isBlank (l : Line) : Bool :=
  l.text.isBlank

/-- The first line of a text and what follows it. -/
def read (t : Text) : Line × Text :=
  let (ending, rest) := LineEnding.read (t.dropWhile (!·.isLineBreak))
  (⟨t.takeWhile (!·.isLineBreak), ending⟩, rest)

/-- Reading a line loses nothing. -/
theorem render_append_read (t : Text) : (read t).1.render ++ (read t).2 = t := by
  simp only [read, render, List.append_assoc, LineEnding.text_append_read,
    List.takeWhile_append_dropWhile]

/-- A line of a text that is not empty takes something from it: the glyph at the
front stands on the line or belongs to its ending. -/
theorem length_read_lt (g : Glyph) (t : Text) : (read (g :: t)).2.length < (g :: t).length := by
  have whole := congrArg List.length (render_append_read (g :: t))
  have taken : 0 < (read (g :: t)).1.render.length := by
    apply List.length_pos_iff.mpr
    intro nothing
    rw [render, List.append_eq_nil_iff] at nothing
    obtain ⟨bare, unended⟩ := nothing
    cases hbreak : g.isLineBreak with
    | false => simp [read, hbreak] at bare
    | true =>
        have stopped : (g :: t).dropWhile (!·.isLineBreak) = g :: t := by simp [hbreak]
        simp only [read, stopped] at unended
        exact LineEnding.text_read_ne_nil hbreak t unended
  rw [List.length_append] at whole
  omega

end Line

namespace Text

/-- The lines of a text, in order. The empty text has none, and a text that ends
with a line break has no further line after it. -/
def lines : Text → List Line
  | [] => []
  | g :: rest => (Line.read (g :: rest)).1 :: lines (Line.read (g :: rest)).2
termination_by t => t.length
decreasing_by exact Line.length_read_lt g rest

/-- Splitting into lines keeps every glyph in its place. -/
theorem flatMap_render_lines (t : Text) : t.lines.flatMap Line.render = t := by
  fun_induction lines t with
  | case1 => rfl
  | case2 g rest ih => rw [List.flatMap_cons, ih, Line.render_append_read]

end Text

end AttributeLists
