/-
# Where lists went away, and what becomes of the lines there

A list that goes away without a trace stood somewhere in the new text: behind all that is
left of what came before it. These places mark the blank lines that were emptied, and the
collapsed text is settled by the marks alone. A run of blank lines that holds an emptied
line leaves one line break. It is bare if the first line of the run was emptied itself;
otherwise that line was blank before and stays as it is, with its indentation. So each such
run shrinks to a bare line break exactly if none of them starts with an indentation that no
list stood behind.
-/

import Mathlib.Data.List.Flatten
import Mathlib.Data.List.Forall2
import AttributeLists.Proofs.Name.Identifier
import AttributeLists.Proofs.Prune.Removals

namespace AttributeLists

/-- A list of the layout goes away without a trace, and it stood at this place of the new
text. -/
def Layout.VanishesAt (wanted : Text) (l : Layout) (place : Nat) : Prop :=
  ∃ before gap b after, l.parts = before ++ (gap, b) :: after ∧
    (b.prune wanted).vanished = true ∧
    place = (Pruned.written (pruneParts wanted before) ++ gap).length

theorem Layout.vanishesAt_iff {wanted : Text} {l : Layout} {place : Nat} :
    l.VanishesAt wanted place ↔ place ∈ Pruned.removals 0 (l.prune wanted) := by
  rw [VanishesAt, prune, removals_pruneParts]
  simp only [Nat.zero_add, List.mem_map, mem_fronts_iff]
  constructor
  · rintro ⟨before, gap, b, after, parts, gone, rfl⟩
    exact ⟨_, ⟨before, gap, b, after, parts, Bracketed.vanished_prune_iff.mp gone, rfl⟩, rfl⟩
  · rintro ⟨front, ⟨before, gap, b, after, parts, gone, rfl⟩, rfl⟩
    exact ⟨before, gap, b, after, parts, Bracketed.vanished_prune_iff.mpr gone, rfl⟩

namespace MarkedLine

/-- What a stretch of lines becomes. -/
inductive Becomes : List MarkedLine → Text → Prop
  | untouched {run : List MarkedLine} (kept : ∀ l ∈ run, l.emptied = false) :
      Becomes run (render run)
  /-- The first line was emptied, and its line break stays. -/
  | bare {first : MarkedLine} {more : List MarkedLine} (emptied : first.emptied = true) :
      Becomes (first :: more) first.line.ending.text
  /-- The first line was blank before, and it stays. -/
  | indented {first : MarkedLine} {more : List MarkedLine} (kept : first.emptied = false)
      (touched : ∃ l ∈ more, l.emptied = true) : Becomes (first :: more) first.line.render

theorem becomes_iff {run : List MarkedLine} {piece : Text} :
    Becomes run piece ↔ piece = settle run := by
  constructor
  · intro becomes
    cases becomes with
    | untouched kept => rw [settle_of_not_emptied (by simpa using kept)]
    | bare emptied =>
        rw [settle_of_touched ⟨_, List.mem_cons_self, emptied⟩, if_pos emptied]
    | indented kept touched =>
        obtain ⟨l, inside, emptied⟩ := touched
        rw [settle_of_touched ⟨l, List.mem_cons_of_mem _ inside, emptied⟩, kept]
        rfl
  · rintro rfl
    by_cases touched : ∃ l ∈ run, l.emptied = true
    · cases run with
      | nil => simp at touched
      | cons first more =>
          rw [settle_of_touched touched]
          cases emptied : first.emptied with
          | true => exact .bare emptied
          | false => exact .indented emptied (by simpa [emptied] using touched)
    · have kept : ∀ l ∈ run, l.emptied = false := by simpa using touched
      rw [settle_of_not_emptied (by simpa using kept)]
      exact .untouched kept

/-- The run with its bare line break in place of it if one of its lines was emptied. -/
def bared (run : List MarkedLine) : Text :=
  if run.any emptied then run.head?.elim [] (·.line.ending.text) else render run

theorem bared_suffix_settle (run : List MarkedLine) : bared run <:+ settle run := by
  by_cases touched : ∃ l ∈ run, l.emptied = true
  · cases run with
    | nil => simp at touched
    | cons first more =>
        rw [settle_of_touched touched, bared, if_pos (List.any_eq_true.mpr touched)]
        split
        · exact List.suffix_refl _
        · exact List.suffix_append _ _
  · have kept : run.any emptied = false := by simpa using touched
    rw [settle_of_not_emptied kept, bared, kept]
    exact List.suffix_refl _

/-- A run shrinks to its bare line break unless it starts with an indentation that no list
stood behind. -/
theorem settle_eq_bared_iff {first : MarkedLine} {more : List MarkedLine} :
    settle (first :: more) = bared (first :: more) ↔
      ((∃ l ∈ first :: more, l.emptied = true) → first.emptied = true ∨ first.line.text = []) := by
  by_cases touched : ∃ l ∈ first :: more, l.emptied = true
  · rw [settle_of_touched touched, bared, if_pos (List.any_eq_true.mpr touched),
      imp_iff_right touched]
    cases first.emptied <;> simp [Line.render]
  · have kept : (first :: more).any emptied = false := by simpa using touched
    rw [settle_of_not_emptied kept, bared, kept]
    exact iff_of_true rfl fun some_emptied => absurd some_emptied touched

/-- The ends of pieces, put together, are as long as the pieces only if nothing is missing
from any of them. -/
theorem flatMap_settle_eq_iff (pieces : List (List MarkedLine)) :
    pieces.flatMap settle = (pieces.map bared).flatten ↔
      ∀ run ∈ pieces, settle run = bared run := by
  rw [← List.flatMap_def]
  constructor
  · intro same
    induction pieces with
    | nil => simp
    | cons run pieces ih =>
        rw [List.flatMap_cons, List.flatMap_cons] at same
        have shorter := (bared_suffix_settle run).length_le
        have later : (pieces.flatMap bared).Sublist (pieces.flatMap settle) :=
          List.Sublist.flatMap_right pieces fun run _ => (bared_suffix_settle run).sublist
        have later_shorter := later.length_le
        have lengths := congrArg List.length same
        simp only [List.length_append] at lengths
        obtain ⟨here, rest⟩ := List.append_inj same (by omega)
        rw [List.forall_mem_cons]
        exact ⟨here, ih rest⟩
  · exact fun each => List.flatMap_congr each

end MarkedLine

namespace Text

/-- With collapsing, each run of blank lines that holds an emptied line shrinks to its first
line: to the bare line break if that line was emptied itself, and to the line as it stands if
it was blank before. All the rest of the uncollapsed text stays, and as many entries are
removed. So every such run shrinks to its bare line break exactly if each of them starts with
an emptied line or with one that holds nothing at all. -/
theorem prune_collapsed_runs (name : AttributeName) (t : Text) :
    ∃ marked pieces,
      (∀ others, (t.prune name false).text.Marked ((Layout.ofText t).VanishesAt name.text) others ↔
        others = marked) ∧
      (∀ others, List.Forall₂ MarkedLine.Becomes (MarkedLine.runs marked) others ↔
        others = pieces) ∧
      t.prune name true = ⟨pieces.flatten, (t.prune name false).removed⟩ ∧
      ((t.prune name true).text = ((MarkedLine.runs marked).map MarkedLine.bared).flatten ↔
        ∀ first more, first :: more ∈ MarkedLine.runs marked →
          (∃ l ∈ first :: more, l.emptied = true) →
          first.emptied = true ∨ first.line.text = []) := by
  have kept : t.prune name false =
      ⟨(Layout.ofText t).pruned name.text, Pruned.total ((Layout.ofText t).prune name.text)⟩ :=
    prune_eq name false t
  have collapsed : t.prune name true =
      ⟨((Layout.ofText t).pruned name.text).collapse
          (Pruned.removals 0 ((Layout.ofText t).prune name.text)),
        Pruned.total ((Layout.ofText t).prune name.text)⟩ :=
    prune_eq name true t
  have ordered := Pruned.pairwise_removals 0 ((Layout.ofText t).prune name.text)
  rw [kept, collapsed, collapse_eq_flatMap_runs]
  generalize marking : MarkedLine.mark _ 0 _ = marked
  refine ⟨marked, (MarkedLine.runs marked).map MarkedLine.settle, ?_, ?_, ?_, ?_⟩
  · intro others
    rw [← marking]
    exact marked_iff ordered fun _ => Layout.vanishesAt_iff
  · intro others
    have settles : MarkedLine.Becomes = fun run piece => MarkedLine.settle run = piece := by
      funext run piece
      exact propext (MarkedLine.becomes_iff.trans eq_comm)
    rw [settles, ← List.forall₂_map_left_iff, List.forall₂_eq_eq_eq]
    exact eq_comm
  · rw [List.flatMap_def]
  · rw [MarkedLine.flatMap_settle_eq_iff]
    constructor
    · intro each first more inside
      exact MarkedLine.settle_eq_bared_iff.mp (each _ inside)
    · intro starts run inside
      obtain ⟨first, more, rfl⟩ :=
        List.exists_cons_of_ne_nil (List.ne_nil_of_mem_splitBy inside)
      exact MarkedLine.settle_eq_bared_iff.mpr (starts first more inside)

/-- A blank line with an indentation stays in front of the line that a list was taken off, so
the run does not shrink to its bare line break. -/
theorem indentation_stays_before_emptied_line :
    let name : AttributeName := ⟨ofString "T", isAttributeName_singleton rfl⟩
    let t := ofString "  \n[T]\nint a;"
    let marked : List MarkedLine :=
      [⟨⟨ofString "  ", .lf⟩, false⟩, ⟨⟨[], .lf⟩, true⟩, ⟨⟨ofString "int a;", .unfinished⟩, false⟩]
    (t.prune name false).text.Marked ((Layout.ofText t).VanishesAt name.text) marked ∧
      (t.prune name true).text = ofString "  \nint a;" ∧
      (t.prune name true).text ≠ ((MarkedLine.runs marked).map MarkedLine.bared).flatten := by
  intro name t marked
  refine ⟨?_, by decide +kernel, by decide +kernel⟩
  have ordered := Pruned.pairwise_removals 0 ((Layout.ofText t).prune name.text)
  rw [marked_iff ordered fun _ => Layout.vanishesAt_iff]
  decide +kernel

end Text

end AttributeLists
