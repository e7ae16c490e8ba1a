/-
# What becomes of the runs of blank lines

The lines of a text are cut into the longest runs of blank lines, with every other line on
its own. The sweep settles these stretches one by one and keeps their order, so it is
enough to know what it makes of a single one: a line that shows something stays, a run
that nothing went away in stays, and of any other run a part of its first line stays.

Which lines are emptied is told by the places at which lists went away: such a place lies
on a blank line, at its start, at the end of its text, or in between.
-/

import Mathlib.Data.List.SplitBy
import AttributeLists.Proofs.Prune.BlankRun
import AttributeLists.Proofs.Prune.LowerBound
import AttributeLists.Proofs.Text.FlushLeft
import AttributeLists.Proofs.Text.InLines

namespace AttributeLists

/-- The line starts at an offset and was emptied by what went away at some places. -/
def Line.IsEmptied (gone : Nat → Prop) (offset : Nat) (l : Line) : Prop :=
  l.isBlank = true ∧ ∃ place, gone place ∧ offset ≤ place ∧ place ≤ offset + l.text.length

/-- These are the lines of the text, and those that were emptied are marked. -/
structure Text.Marked (t : Text) (gone : Nat → Prop) (marked : List MarkedLine) : Prop where
  lines : t.InLines (marked.map MarkedLine.line)
  emptied : ∀ before l after, marked = before ++ l :: after →
    (l.emptied = true ↔ l.line.IsEmptied gone (MarkedLine.render before).length)

namespace MarkedLine

/-- Two lines that follow each other belong to one run if both are blank. -/
def joins (first second : MarkedLine) : Bool :=
  first.line.isBlank && second.line.isBlank

/-- The longest runs of blank lines, and each other line on its own, in their order. -/
def runs (lines : List MarkedLine) : List (List MarkedLine) :=
  lines.splitBy joins

theorem eq_mark_iff {gone : Nat → Prop} {positions : Array Nat}
    (found : ∀ first last, holdsPosition positions first last = true ↔
      ∃ place, gone place ∧ first ≤ place ∧ place ≤ last)
    (offset : Nat) (marked : List MarkedLine) :
    marked = mark positions offset (marked.map line) ↔
      ∀ before l after, marked = before ++ l :: after →
        (l.emptied = true ↔ l.line.IsEmptied gone (offset + (render before).length)) := by
  -- A later line starts behind the first one, at an offset that is larger by its length.
  induction marked generalizing offset with
  | nil => simp [mark]
  | cons m marked ih =>
      rcases m with ⟨first, emptied⟩
      have here : emptied =
            (first.isBlank && holdsPosition positions offset (offset + first.text.length)) ↔
          (emptied = true ↔ first.IsEmptied gone offset) := by
        rw [Bool.eq_iff_iff, Bool.and_eq_true, found, Line.IsEmptied]
      simp only [List.map_cons, mark, List.cons.injEq, MarkedLine.mk.injEq, true_and, here, ih]
      constructor
      · intro holds before l after split
        rcases List.cons_eq_append_iff.mp split with ⟨rfl, same⟩ | ⟨before, rfl, split⟩
        · obtain ⟨rfl, rfl⟩ := List.cons.inj same
          exact holds.1
        · rw [render_cons, List.length_append, ← Nat.add_assoc]
          exact holds.2 before l after (List.cons.inj split).2
      · intro holds
        refine ⟨holds [] _ _ rfl, fun before l after split => ?_⟩
        have later := holds (⟨first, emptied⟩ :: before) l after (by rw [split]; rfl)
        rwa [render_cons, List.length_append, ← Nat.add_assoc] at later

end MarkedLine

/-- There is one way to mark the lines of a text, and the search in the positions finds it. -/
theorem Text.marked_iff {t : Text} {gone : Nat → Prop} {positions : List Nat}
    (ordered : positions.Pairwise (· ≤ ·)) (same : ∀ place, gone place ↔ place ∈ positions)
    {marked : List MarkedLine} :
    t.Marked gone marked ↔ marked = MarkedLine.mark positions.toArray 0 t.lines := by
  have found (first last : Nat) : holdsPosition positions.toArray first last = true ↔
      ∃ place, gone place ∧ first ≤ place ∧ place ≤ last := by
    simp only [holdsPosition_toArray_iff ordered, same]
  have marks := MarkedLine.eq_mark_iff found 0 marked
  simp only [Nat.zero_add] at marks
  constructor
  · intro holds
    rw [← Text.inLines_iff.mp holds.lines]
    exact marks.mpr holds.emptied
  · intro holds
    have lines := MarkedLine.map_line_mark positions.toArray 0 t.lines
    rw [← holds] at lines
    refine ⟨inLines_iff.mpr lines, marks.mp ?_⟩
    rwa [lines]

namespace MarkedLine

theorem isBlank_of_isChain {first : MarkedLine} {more : List MarkedLine}
    (chain : (first :: more).IsChain fun l m => joins l m = true)
    (blank : first.line.isBlank = true) : ∀ l ∈ first :: more, l.line.isBlank = true := by
  induction more generalizing first with
  | nil => simpa using blank
  | cons second more ih =>
      obtain ⟨joined, chain⟩ := List.isChain_cons_cons.mp chain
      rw [joins, Bool.and_eq_true] at joined
      rw [List.forall_mem_cons]
      exact ⟨blank, ih chain joined.2⟩

theorem of_mem_runs {lines run : List MarkedLine} (inside : run ∈ runs lines) :
    (∃ l, run = [l] ∧ l.line.isBlank = false) ∨
      ∃ first more, run = first :: more ∧ ∀ l ∈ first :: more, l.line.isBlank = true := by
  have chain := List.isChain_of_mem_splitBy inside
  obtain ⟨first, more, rfl⟩ := List.exists_cons_of_ne_nil (List.ne_nil_of_mem_splitBy inside)
  cases blank : first.line.isBlank with
  | true => exact .inr ⟨first, more, rfl, isBlank_of_isChain chain blank⟩
  | false =>
      cases more with
      | nil => exact .inl ⟨first, rfl, blank⟩
      | cons second more =>
          have joined := (List.isChain_cons_cons.mp chain).1
          rw [joins, blank] at joined
          contradiction

theorem runs_of_isBlank {run : List MarkedLine} (nonempty : run ≠ [])
    (blank : ∀ l ∈ run, l.line.isBlank = true) : runs run = [run] := by
  apply List.splitBy_of_isChain nonempty
  apply List.Pairwise.isChain
  rw [List.pairwise_iff_forall_sublist]
  intro first second both
  have inside := both.subset
  simp [joins, blank first (inside (by simp)), blank second (inside (by simp))]

theorem runs_append_cons {run rest : List MarkedLine} {l : MarkedLine}
    (shows : l.line.isBlank = false) : runs (run ++ l :: rest) = runs run ++ [l] :: runs rest := by
  have alone : runs ([l] ++ rest) = [[l]] ++ runs rest := by
    apply List.splitBy_append
    simp [joins, shows]
  rw [runs, List.splitBy_append_cons rest (by simp [joins, shows])]
  exact congrArg (runs run ++ ·) alone

/-- A run of blank lines is settled as a whole. -/
theorem flatMap_settle_runs {run : List MarkedLine} (blank : ∀ l ∈ run, l.line.isBlank = true) :
    (runs run).flatMap settle = settle run := by
  by_cases empty : run = []
  · subst empty
    rfl
  · rw [runs_of_isBlank empty blank, List.flatMap_singleton]

theorem settle_of_shows {l : MarkedLine} (kept : l.emptied = false) :
    settle [l] = l.line.render := by
  rw [settle_of_not_emptied (by simpa using kept), render_cons, render_nil, List.append_nil]

/-- The sweep settles the runs one by one. Blank lines that wait are the start of the first run. -/
theorem text_foldl_eq_flatMap_runs {run : Array MarkedLine} {lines : List MarkedLine}
    (run_blank : ∀ l ∈ run.toList, l.line.isBlank = true)
    (shown_kept : ∀ l ∈ lines, l.line.isBlank = false → l.emptied = false) :
    (lines.foldl Sweep.step ⟨#[], run⟩).text = (runs (run.toList ++ lines)).flatMap settle := by
  induction lines generalizing run with
  | nil => rw [List.append_nil, flatMap_settle_runs run_blank, List.foldl_nil, Sweep.text_mk]; rfl
  | cons l lines ih =>
      rw [List.forall_mem_cons] at shown_kept
      cases blank : l.line.isBlank with
      | true =>
          have joined : ∀ m ∈ (run.push l).toList, m.line.isBlank = true := by
            simpa [or_imp, forall_and, blank] using run_blank
          have swept := ih joined shown_kept.2
          rw [Array.toList_push, List.append_assoc, List.singleton_append] at swept
          rw [List.foldl_cons, Sweep.step, if_pos blank, swept]
      | false =>
          have rest := @ih #[] (by simp) shown_kept.2
          rw [runs_append_cons blank, List.flatMap_append, List.flatMap_cons,
            flatMap_settle_runs run_blank, settle_of_shows (shown_kept.1 blank),
            Sweep.text_foldl_cons_of_shows blank, Sweep.start, rest]
          rfl

theorem emptied_eq_false_of_mem_mark {removals : Array Nat} {offset : Nat} {lines : List Line}
    {l : MarkedLine} (inside : l ∈ mark removals offset lines) (shows : l.line.isBlank = false) :
    l.emptied = false := by
  induction lines generalizing offset with
  | nil => contradiction
  | cons first lines ih =>
      rcases List.mem_cons.mp inside with rfl | later
      · simp only at shows
        simp [shows]
      · exact ih later

/-- What a stretch of lines leaves in the collapsed text. -/
inductive Framed : List MarkedLine → Text → Prop
  | shown {l : MarkedLine} (shows : l.line.isBlank = false) : Framed [l] l.line.render
  | untouched {run : List MarkedLine} (blank : ∀ l ∈ run, l.line.isBlank = true)
      (kept : ∀ l ∈ run, l.emptied = false) : Framed run (render run)
  /-- Of the first line its ending stays, and perhaps some of the blanks before it. -/
  | shrunk {first : MarkedLine} {more : List MarkedLine} {piece : Text}
      (blank : ∀ l ∈ first :: more, l.line.isBlank = true)
      (touched : ∃ l ∈ first :: more, l.emptied = true) (suffix : piece <:+ first.line.render)
      (ends : first.line.ending.text <:+ piece) (unshown : piece.isBlank = true) :
      Framed (first :: more) piece

theorem settle_of_touched {first : MarkedLine} {more : List MarkedLine}
    (touched : ∃ l ∈ first :: more, l.emptied = true) :
    settle (first :: more) =
      if first.emptied then first.line.ending.text else first.line.render := by
  have any : (first :: more).any emptied = true := List.any_eq_true.mpr touched
  simp only [settle, any]

theorem framed_settle_of_isBlank {first : MarkedLine} {more : List MarkedLine}
    (blank : ∀ l ∈ first :: more, l.line.isBlank = true) :
    Framed (first :: more) (settle (first :: more)) := by
  by_cases touched : ∃ l ∈ first :: more, l.emptied = true
  · have unshown := Line.isBlank_render (blank first List.mem_cons_self)
    rw [settle_of_touched touched]
    cases first.emptied with
    | true =>
        rw [Line.render, Text.isBlank_append, Bool.and_eq_true] at unshown
        exact .shrunk blank touched (List.suffix_append _ _) (List.suffix_refl _) unshown.2
    | false =>
        exact .shrunk blank touched (List.suffix_refl _) (List.suffix_append _ _) unshown
  · have kept : ∀ l ∈ first :: more, l.emptied = false := by simpa using touched
    rw [settle_of_not_emptied (by simpa using kept)]
    exact .untouched blank kept

theorem framed_settle {lines run : List MarkedLine} (inside : run ∈ runs lines)
    (shown_kept : ∀ l ∈ lines, l.line.isBlank = false → l.emptied = false) :
    Framed run (settle run) := by
  rcases of_mem_runs inside with ⟨l, rfl, shows⟩ | ⟨first, more, rfl, blank⟩
  · have among : l ∈ lines := by
      rw [← List.flatten_splitBy joins lines, List.mem_flatten]
      exact ⟨[l], inside, List.mem_singleton_self l⟩
    rw [settle_of_shows (shown_kept l among shows)]
    exact .shown shows
  · exact framed_settle_of_isBlank blank

end MarkedLine

namespace Text

/-- The collapsed text is what the runs of its lines are settled to. -/
theorem collapse_eq_flatMap_runs (t : Text) (removals : List Nat) :
    t.collapse removals =
      (MarkedLine.runs (MarkedLine.mark removals.toArray 0 t.lines)).flatMap MarkedLine.settle := by
  rw [collapse_eq_text_foldl, Sweep.start, MarkedLine.text_foldl_eq_flatMap_runs (by simp)]
  · rfl
  · exact fun l => MarkedLine.emptied_eq_false_of_mem_mark

/-- Of a text that is collapsed every line that shows something stays, and every run of
blank lines that nothing went away in. Each other run shrinks to the ending of its first
line, perhaps with some of the blanks that stood before it. Where no line is emptied,
nothing changes. -/
theorem collapse_frame (t : Text) {positions : List Nat}
    (ordered : positions.Pairwise (· ≤ ·)) :
    ∃ marked, (∀ others, t.Marked (· ∈ positions) others ↔ others = marked) ∧
      (∃ pieces, List.Forall₂ MarkedLine.Framed (MarkedLine.runs marked) pieces ∧
        t.collapse positions = pieces.flatten) ∧
      ((∀ l ∈ marked, l.emptied = false) → t.collapse positions = t) := by
  refine ⟨MarkedLine.mark positions.toArray 0 t.lines, ?_, ?_, ?_⟩
  · exact fun others => marked_iff ordered fun _ => Iff.rfl
  · refine ⟨_, ?_, (collapse_eq_flatMap_runs t positions).trans (List.flatMap_def ..)⟩
    rw [List.forall₂_map_right_iff, List.forall₂_same]
    intro run inside
    exact MarkedLine.framed_settle inside fun l => MarkedLine.emptied_eq_false_of_mem_mark
  · intro kept
    have unmarked :
        (MarkedLine.mark positions.toArray 0 t.lines).any MarkedLine.emptied = false := by
      simpa using kept
    simp [collapse, unmarked]

/-- A list went away from the second of three blank lines, and one place lies beyond the
text. -/
theorem collapse_frame_inside_run :
    let t := ofString "a\r\n \n\x0c\n\nb\n\n"
    let positions := [5, 40]
    positions.Pairwise (· ≤ ·) ∧ t.collapse positions = ofString "a\r\n \nb\n\n" ∧
      ∃ marked, (∀ others, t.Marked (· ∈ positions) others ↔ others = marked) ∧
        (∃ pieces, List.Forall₂ MarkedLine.Framed (MarkedLine.runs marked) pieces ∧
          t.collapse positions = pieces.flatten) ∧
        ((∀ l ∈ marked, l.emptied = false) → t.collapse positions = t) := by
  intro t positions
  have ordered : positions.Pairwise (· ≤ ·) := by decide
  exact ⟨ordered, by decide +kernel, collapse_frame t ordered⟩

end Text

end AttributeLists
