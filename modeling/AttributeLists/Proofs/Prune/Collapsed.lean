/-
# Lists in a text with collapsed lines

Collapsing takes whole blank lines out of a text, or the blanks of a line, and leaves
everything else as it is. So with the indentation taken off all lines the text before
and the text after are the same, and both have the same lists up to the blanks in
their bodies. Collapsing can neither bring an application of an attribute to light
nor hide one.
-/

import AttributeLists.Proofs.Listing.Append
import AttributeLists.Proofs.Listing.Respaced
import AttributeLists.Proofs.Prune.BlankRun
import AttributeLists.Proofs.Text.FlushLeft

namespace AttributeLists

namespace MarkedLine

theorem isBlank_render {run : List MarkedLine} (blank : ∀ l ∈ run, l.line.isBlank = true) :
    (render run).isBlank = true := by
  induction run with
  | nil => rfl
  | cons l run ih =>
      rw [render_cons, Text.isBlank_append, Line.isBlank_render (blank l List.mem_cons_self),
        ih fun m inside => blank m (List.mem_cons_of_mem l inside), Bool.and_self]

theorem isBlank_settle {run : List MarkedLine} (blank : ∀ l ∈ run, l.line.isBlank = true) :
    (settle run).isBlank = true := by
  unfold settle
  split
  · rename_i first more found
    have first_blank := Line.isBlank_render (blank first List.mem_cons_self)
    split
    · rw [Line.render, Text.isBlank_append, Bool.and_eq_true] at first_blank
      exact first_blank.2
    · exact first_blank
  · exact isBlank_render blank

end MarkedLine

namespace Sweep

/-- A sweep changes blank lines only. -/
theorem flushLeft_text_foldl {run : Array MarkedLine} {lines : List MarkedLine}
    (run_blank : ∀ l ∈ run.toList, l.line.isBlank = true)
    (finished : ∀ l ∈ lines.dropLast, l.line.ending ≠ .unfinished) :
    Text.flushLeft true (lines.foldl step ⟨#[], run⟩).text =
      Text.flushLeft true (MarkedLine.render lines) := by
  induction lines generalizing run with
  | nil =>
      have settled := Text.flushLeft_append_of_isBlank (MarkedLine.isBlank_settle run_blank) []
      simpa [text_mk] using settled
  | cons l lines ih =>
      have later : ∀ m ∈ lines.dropLast, m.line.ending ≠ .unfinished := by
        intro m inside
        apply finished m
        cases lines with
        | nil => contradiction
        | cons next lines =>
            rw [List.dropLast_cons_cons]
            exact List.mem_cons_of_mem l inside
      by_cases blank : l.line.isBlank = true
      · have joined_blank : ∀ m ∈ (run.push l).toList, m.line.isBlank = true := by
          intro m inside
          rw [Array.toList_push, List.mem_append, List.mem_singleton] at inside
          rcases inside with before | rfl
          · exact run_blank m before
          · exact blank
        rw [List.foldl_cons, step, if_pos blank, ih joined_blank later, MarkedLine.render_cons,
          Text.flushLeft_append_of_isBlank (Line.isBlank_render blank)]
      · have settled := MarkedLine.isBlank_settle run_blank
        have rest := @ih #[] (by simp) later
        rw [text_foldl_cons_of_shows (by simpa using blank), start,
          Text.flushLeft_append_of_isBlank settled, MarkedLine.render_cons]
        cases lines with
        | nil => rfl
        | cons next lines =>
            have ended : l.line.ending ≠ .unfinished := finished l (by simp)
            rw [Line.flushLeft_render_append ended, Line.flushLeft_render_append ended, rest]

end Sweep

namespace Text

theorem flushLeft_collapse (t : Text) (removals : List Nat) :
    flushLeft true (t.collapse removals) = flushLeft true t := by
  have finished : ∀ l ∈ (MarkedLine.mark removals.toArray 0 t.lines).dropLast,
      l.line.ending ≠ .unfinished := by
    intro l inside
    apply ending_ne_unfinished t
    rw [← MarkedLine.map_line_mark removals.toArray 0 t.lines, ← List.map_dropLast]
    exact List.mem_map_of_mem inside
  rw [collapse_eq_text_foldl, Sweep.start, Sweep.flushLeft_text_foldl (by simp) finished,
    MarkedLine.render_mark, flatMap_render_lines]

end Text

namespace Text

theorem head?_flushLeft (t : Text) : (flushLeft false t).head? = t.head? := by
  cases t <;> rfl

theorem slashes_prefix_of_flushLeft {t : Text} (start : slashes <+: flushLeft false t) :
    slashes <+: t := by
  rcases start with ⟨more, whole⟩
  cases t with
  | nil => contradiction
  | cons g t =>
      obtain ⟨rfl, later⟩ := List.cons.inj whole
      have next := congrArg List.head? later
      rw [show Glyph.isLineBreak (.char '/') = false from rfl, head?_flushLeft] at next
      obtain ⟨rest, rfl⟩ := List.head?_eq_some_iff.mp next.symm
      exact ⟨rest, rfl⟩

end Text

namespace Bracketed.StandsBefore

variable {b : Bracketed} {rest : Text} (stands : b.StandsBefore rest)
include stands

theorem flushLeft :
    StandsBefore { b with body := b.body.flushLeft false } (rest.flushLeft false) where
  body := fun inside => stands.body ((Text.flushLeft_sublist false b.body).subset inside)
  space := stands.space
  space_ends := by
    rw [List.head?_append, Text.head?_flushLeft, ← List.head?_append]
    exact stands.space_ends
  comment := by
    rw [Text.head?_flushLeft]
    exact stands.comment.imp_left fun uncommented =>
      ⟨uncommented.1, fun start => uncommented.2 (Text.slashes_prefix_of_flushLeft start)⟩

theorem flushLeft_append_source (gap : Text) (fresh : Bool) :
    Text.flushLeft fresh (gap ++ (b.source ++ rest)) =
      gap.flushLeft fresh ++
        (source { b with body := b.body.flushLeft false } ++ rest.flushLeft false) := by
  rw [source_append, source_append, Text.flushLeft_append_cons rfl,
    Text.flushLeft_append_cons rfl, ← List.append_assoc b.space,
    Text.flushLeft_append_of_unbroken stands.isLineBreak_of_mem_trailing, List.append_assoc]

end Bracketed.StandsBefore

namespace LaidOut

/-- A text and the one without indentation have the same lists, up to the blanks in
their bodies. -/
theorem flushLeft {t : Text} {l : Layout} (laid : LaidOut t l) (fresh : Bool) :
    ∃ m, LaidOut (t.flushLeft fresh) m ∧
      List.Forall₂ (fun part other => Text.Respaced part.2.body other.2.body)
        l.parts m.parts := by
  induction laid generalizing fresh with
  | @tail t unclosed =>
      refine ⟨_, .tail fun before after whole inside => ?_, .nil⟩
      have pair : [.char '[', .char ']'].Sublist (t.flushLeft fresh) := by
        rw [whole]
        exact .trans (.cons_cons _ (List.singleton_sublist.mpr inside))
          (List.sublist_append_right before _)
      obtain ⟨front, back, rfl, opening, closing⟩ :=
        List.cons_sublist_iff.mp (pair.trans (Text.flushLeft_sublist fresh t))
      obtain ⟨left, right, rfl⟩ := List.append_of_mem opening
      apply unclosed left (right ++ back) (by simp)
      apply List.mem_append_right right
      exact List.singleton_sublist.mp closing
  | @list gap rest b l gap_closed stands laid ih =>
      obtain ⟨m, laid_rest, pairs⟩ := ih false
      rw [stands.flushLeft_append_source]
      refine ⟨_, .list ?_ stands.flushLeft laid_rest, .cons (Text.respaced_flushLeft b.body) pairs⟩
      exact fun inside => gap_closed ((Text.flushLeft_sublist fresh gap).subset inside)

end LaidOut

namespace Text

/-- Some list of the text applies the attribute. -/
def Applies (wanted t : Text) : Prop :=
  ∃ part ∈ (Layout.ofText t).parts, part.2.Applies wanted

theorem applies_flushLeft (wanted t : Text) (fresh : Bool) :
    Applies wanted (t.flushLeft fresh) ↔ Applies wanted t := by
  obtain ⟨m, laid, pairs⟩ := (LaidOut.ofText t).flushLeft fresh
  rw [Applies, ← laid.eq_ofText, Applies]
  generalize (Layout.ofText t).parts = parts at pairs
  generalize m.parts = others at pairs
  induction pairs with
  | nil => simp
  | cons first more ih =>
      simp only [List.mem_cons, exists_eq_or_imp, ih]
      rw [Bracketed.applies_congr first]

/-- Collapsing neither shows nor hides an application of an attribute. -/
theorem applies_collapse (wanted t : Text) (removals : List Nat) :
    Applies wanted (t.collapse removals) ↔ Applies wanted t := by
  rw [← applies_flushLeft wanted _ true, flushLeft_collapse, applies_flushLeft]

end Text

end AttributeLists
