/-
# The sweep over blank runs

A sweep never looks back: what it has settled stays in front of everything that is
still to come. So two stretches of lines can be swept one by one whenever no run
reaches from one into the other, which a line that shows something rules out. A
stretch without an emptied line comes out as it went in.

Whatever the sweep does with a line, all of the line is kept, or its ending, or
nothing, and the lines keep their order.
-/

import Mathlib.Data.List.Forall2
import AttributeLists.Prune.BlankRun

namespace AttributeLists

/-- Lines as they stand, one after the other. -/
def MarkedLine.render (lines : List MarkedLine) : Text :=
  lines.flatMap fun l => l.line.render

/-- What can be kept of a line: all of it, its ending, or nothing. -/
inductive Line.Keeps (l : Line) : Text → Prop
  | whole : Keeps l l.render
  | ending : Keeps l l.ending.text
  | nothing : Keeps l []

theorem Line.Keeps.sublist {l : Line} {piece : Text} (keeps : l.Keeps piece) :
    piece.Sublist l.render := by
  cases keeps with
  | whole => exact .refl _
  | ending => exact List.sublist_append_right _ _
  | nothing => exact List.nil_sublist _

namespace MarkedLine

@[simp]
theorem render_nil : render [] = [] := rfl

@[simp]
theorem render_cons (l : MarkedLine) (lines : List MarkedLine) :
    render (l :: lines) = l.line.render ++ render lines := rfl

@[simp]
theorem render_append (first second : List MarkedLine) :
    render (first ++ second) = render first ++ render second :=
  List.flatMap_append

theorem settle_of_not_emptied {run : List MarkedLine} (kept : run.any emptied = false) :
    settle run = render run := by
  unfold settle
  rw [kept]
  rfl

theorem exists_settle (run : List MarkedLine) :
    ∃ pieces, List.Forall₂ (fun l => l.line.Keeps) run pieces ∧ settle run = pieces.flatten := by
  cases touched : run.any emptied with
  | false =>
      refine ⟨run.map fun l => l.line.render, ?_, ?_⟩
      · rw [List.forall₂_map_right_iff, List.forall₂_same]
        exact fun l _ => .whole
      · rw [settle_of_not_emptied touched, render, List.flatMap_def]
  | true =>
      cases run with
      | nil => contradiction
      | cons first more =>
          have first_keeps : first.line.Keeps (settle (first :: more)) := by
            simp only [settle, touched]
            split
            · exact .ending
            · exact .whole
          refine ⟨settle (first :: more) :: more.map fun _ => [], .cons first_keeps ?_, by simp⟩
          rw [List.forall₂_map_right_iff, List.forall₂_same]
          exact fun l _ => .nothing

theorem map_line_mark (removals : Array Nat) (offset : Nat) (lines : List Line) :
    (mark removals offset lines).map line = lines := by
  induction lines generalizing offset with
  | nil => rfl
  | cons l lines ih => simp [mark, ih]

theorem render_mark (removals : Array Nat) (offset : Nat) (lines : List Line) :
    render (mark removals offset lines) = lines.flatMap Line.render := by
  rw [render, ← List.flatMap_map, map_line_mark]

theorem mark_append (removals : Array Nat) (offset : Nat) (first second : List Line) :
    mark removals offset (first ++ second) =
      mark removals offset first ++
        mark removals (offset + (first.flatMap Line.render).length) second := by
  induction first generalizing offset with
  | nil => simp [mark]
  | cons l first ih =>
      simp only [List.cons_append, mark, ih, List.flatMap_cons, List.length_append, Line.length,
        Nat.add_assoc]

/-- Marks depend on the positions only through what the search answers for each line. -/
theorem mark_congr {removals others : Array Nat} {offset other : Nat} {lines : List Line}
    (same : ∀ before l after, lines = before ++ l :: after →
      let passed := (before.flatMap Line.render).length
      holdsPosition removals (offset + passed) (offset + passed + l.text.length) =
        holdsPosition others (other + passed) (other + passed + l.text.length)) :
    mark removals offset lines = mark others other lines := by
  induction lines generalizing offset other with
  | nil => rfl
  | cons l lines ih =>
      have first := same [] l lines rfl
      have rest : mark removals (offset + l.length) lines =
          mark others (other + l.length) lines := by
        apply ih
        intro before next after split
        have later := same (l :: before) next after (by rw [split]; rfl)
        simpa [Line.length, Nat.add_assoc] using later
      simp only [List.flatMap_nil, List.length_nil, Nat.add_zero] at first
      simp only [mark, first, rest]

end MarkedLine

namespace Sweep

theorem text_mk (pieces : Array Text) (run : Array MarkedLine) :
    text ⟨pieces, run⟩ = pieces.toList.flatten ++ MarkedLine.settle run.toList := by
  simp [text, flush]

/-- What a sweep has settled stays in front of all that follows. -/
theorem text_foldl (s : Sweep) (lines : List MarkedLine) :
    (lines.foldl step s).text =
      s.pieces.toList.flatten ++ (lines.foldl step ⟨#[], s.run⟩).text := by
  induction lines generalizing s with
  | nil =>
      rcases s with ⟨pieces, run⟩
      simp [text_mk]
  | cons l lines ih =>
      by_cases blank : l.line.isBlank = true
      · have joined := ih ⟨s.pieces, s.run.push l⟩
        simpa [step, blank] using joined
      · have settled :=
          ih ⟨(s.pieces.push (MarkedLine.settle s.run.toList)).push l.line.render, #[]⟩
        have alone :=
          ih ⟨(#[].push (MarkedLine.settle s.run.toList)).push l.line.render, #[]⟩
        simp only [List.foldl_cons, step, blank, flush, if_false, Bool.false_eq_true]
          at settled alone ⊢
        rw [settled, alone]
        simp

/-- A line that shows something settles the run that waits in front of it. -/
theorem text_foldl_cons_of_shows {l : MarkedLine} (shows : l.line.isBlank = false)
    (run : Array MarkedLine) (lines : List MarkedLine) :
    ((l :: lines).foldl step ⟨#[], run⟩).text =
      MarkedLine.settle run.toList ++ (l.line.render ++ (lines.foldl step start).text) := by
  have ended : step ⟨#[], run⟩ l = ⟨#[MarkedLine.settle run.toList, l.line.render], #[]⟩ := by
    simp [step, flush, shows]
  rw [List.foldl_cons, ended, text_foldl]
  simp [start]

theorem text_foldl_of_not_emptied (s : Sweep) (lines : List MarkedLine)
    (run_kept : s.run.toList.any MarkedLine.emptied = false)
    (lines_kept : lines.any MarkedLine.emptied = false) :
    (lines.foldl step s).text =
      s.pieces.toList.flatten ++ (MarkedLine.render s.run.toList ++ MarkedLine.render lines) := by
  induction lines generalizing s with
  | nil =>
      rcases s with ⟨pieces, run⟩
      simp [text_mk, MarkedLine.settle_of_not_emptied run_kept]
  | cons l lines ih =>
      simp only [List.any_cons, Bool.or_eq_false_iff] at lines_kept
      rcases lines_kept with ⟨l_kept, lines_kept⟩
      by_cases blank : l.line.isBlank = true
      · have joined := ih ⟨s.pieces, s.run.push l⟩ (by simp [run_kept, l_kept]) lines_kept
        simpa [step, blank] using joined
      · have settled := ih
          ⟨(s.pieces.push (MarkedLine.settle s.run.toList)).push l.line.render, #[]⟩ rfl lines_kept
        simpa [step, flush, blank, MarkedLine.settle_of_not_emptied run_kept] using settled

theorem exists_text_foldl (run : Array MarkedLine) (lines : List MarkedLine) :
    ∃ pieces, List.Forall₂ (fun l => l.line.Keeps) (run.toList ++ lines) pieces ∧
      (lines.foldl step ⟨#[], run⟩).text = pieces.flatten := by
  induction lines generalizing run with
  | nil =>
      obtain ⟨pieces, keeps, settled⟩ := MarkedLine.exists_settle run.toList
      exact ⟨pieces, by rwa [List.append_nil], by rw [List.foldl_nil, text_mk, settled]; rfl⟩
  | cons l lines ih =>
      by_cases blank : l.line.isBlank = true
      · obtain ⟨pieces, keeps, swept⟩ := ih (run.push l)
        refine ⟨pieces, ?_, by rw [List.foldl_cons, step, if_pos blank, swept]⟩
        rwa [Array.toList_push, List.append_assoc, List.singleton_append] at keeps
      · obtain ⟨settled_pieces, settled_keeps, settled⟩ := MarkedLine.exists_settle run.toList
        obtain ⟨pieces, keeps, swept⟩ := ih #[]
        refine ⟨settled_pieces ++ l.line.render :: pieces,
          List.rel_append settled_keeps (.cons .whole keeps), ?_⟩
        rw [text_foldl_cons_of_shows (by simpa using blank), settled, start, swept]
        simp

/-- After a line that shows something no run waits, so the rest is swept on its own. -/
theorem text_foldl_append {first second : List MarkedLine} {last : MarkedLine}
    (ends : first.getLast? = some last) (shows : last.line.isBlank = false) :
    ((first ++ second).foldl step start).text =
      (first.foldl step start).text ++ (second.foldl step start).text := by
  obtain ⟨before, rfl⟩ := List.getLast?_eq_some_iff.mp ends
  have settled : ((before ++ [last]).foldl step start).run = #[] := by
    simp [step, shows, flush]
  rw [List.foldl_append]
  generalize (before ++ [last]).foldl step start = s at settled
  rcases s with ⟨pieces, run⟩
  subst settled
  have nothing : MarkedLine.settle (#[] : Array MarkedLine).toList = [] := rfl
  rw [text_foldl, text_mk pieces #[], nothing, List.append_nil]
  rfl

end Sweep

namespace Text

/-- Collapsing sweeps over all lines, also if no line was emptied. -/
theorem collapse_eq_text_foldl (t : Text) (removals : List Nat) :
    t.collapse removals =
      ((MarkedLine.mark removals.toArray 0 t.lines).foldl Sweep.step Sweep.start).text := by
  unfold collapse
  dsimp only
  split
  · rfl
  · rename_i kept
    rw [Bool.not_eq_true] at kept
    rw [Sweep.text_foldl_of_not_emptied Sweep.start _ rfl kept, MarkedLine.render_mark,
      flatMap_render_lines]
    rfl

/-- Collapsing keeps the lines in their order, and of each line what can be kept. -/
theorem exists_collapse (t : Text) (removals : List Nat) :
    ∃ pieces, List.Forall₂ Line.Keeps t.lines pieces ∧ t.collapse removals = pieces.flatten := by
  obtain ⟨pieces, keeps, swept⟩ :=
    Sweep.exists_text_foldl #[] (MarkedLine.mark removals.toArray 0 t.lines)
  refine ⟨pieces, ?_, by rw [collapse_eq_text_foldl, Sweep.start, swept]⟩
  rw [← MarkedLine.map_line_mark removals.toArray 0 t.lines, List.forall₂_map_left_iff]
  exact keeps

/-- Collapsing only takes glyphs out. -/
theorem collapse_sublist (t : Text) (removals : List Nat) : (t.collapse removals).Sublist t := by
  obtain ⟨pieces, keeps, collapsed⟩ := exists_collapse t removals
  have whole := flatMap_render_lines t
  rw [collapsed, ← whole, List.flatMap_def]
  generalize t.lines = lines at keeps
  clear collapsed whole
  induction keeps with
  | nil => exact .refl []
  | cons first more ih => exact first.sublist.append ih

theorem collapse_nil (t : Text) : t.collapse [] = t := by
  have kept (offset : Nat) (lines : List Line) :
      (MarkedLine.mark #[] offset lines).any MarkedLine.emptied = false := by
    induction lines generalizing offset with
    | nil => rfl
    | cons l lines ih => simp [MarkedLine.mark, holdsPosition, ih]
  simp [collapse, kept]

end Text

end AttributeLists
