/-
# The positions at which lists vanished

While a new text is laid down, the draft notes a position for each list that goes away
without a trace. It takes the position from the glyphs it has counted, and a stretch of
source may wait in front of the list that is not counted until then. What it notes can be
told without the draft: for each such list, in their order, the length of the new text in
front of it.

So the positions lie within the new text and never decrease, and halving finds in them
whatever a look at each of them would. The lines that count as emptied are then the blank
lines that hold such a position, their two ends included.
-/

import Mathlib.Data.List.Infix
import AttributeLists.Proofs.Prune.Outcome
import AttributeLists.Proofs.Prune.Runs

namespace AttributeLists

namespace Bracketed

/-- The list goes away without a trace: it applies the attribute, no other entry shows
anything, and no comment stays behind. -/
def Vanishes (wanted : Text) (b : Bracketed) : Prop :=
  b.comment = [] ∧ ∃ entries, b.entries? = some entries ∧
    (∃ e ∈ entries, Entry.applies wanted e = true) ∧
    ∀ e ∈ entries, Entry.applies wanted e = true ∨ Text.isBlank e = true

theorem vanished_prune_iff {wanted : Text} {b : Bracketed} :
    (b.prune wanted).vanished = true ↔ b.Vanishes wanted := by
  constructor
  · intro gone
    have becomes := becomes_iff.mpr (Eq.refl (b.prune wanted))
    generalize b.prune wanted = p at gone becomes
    cases becomes with
    | undivided unread => contradiction
    | untouched divided unapplied => contradiction
    | emptied divided applied nothing =>
        have silent : b.comment = [] := by
          simp only [Pruned.vanished, Bool.and_eq_true, List.isEmpty_iff] at gone
          exact gone.2
        exact ⟨silent, _, divided, applied, nothing⟩
    | shortened divided applied others something => simp [Pruned.vanished] at gone
  · rintro ⟨silent, entries, divided, applied, nothing⟩
    have counted : entries.countP (Entry.applies wanted) ≠ 0 := by
      rw [← Nat.pos_iff_ne_zero, List.countP_pos_iff]
      exact applied
    rw [prune_of_applied divided applied, remaining_eq_nil_iff.mpr nothing]
    simp [Pruned.vanished, withEntries, silent, counted]

instance (wanted : Text) (b : Bracketed) : Decidable (b.Vanishes wanted) :=
  decidable_of_iff _ vanished_prune_iff

end Bracketed

namespace Layout

/-- Each part of a layout, behind the parts in front of it. -/
def places (parts : List (Text × Bracketed)) :
    List (List (Text × Bracketed) × Text × Bracketed) :=
  parts.inits.zip parts

/-- The new text in front of each list that goes away without a trace. -/
def fronts (wanted : Text) (parts : List (Text × Bracketed)) : List Text :=
  ((places parts).filter fun place => place.2.2.Vanishes wanted).map fun place =>
    Pruned.written (pruneParts wanted place.1) ++ place.2.1

theorem places_cons (part : Text × Bracketed) (parts : List (Text × Bracketed)) :
    places (part :: parts) = ([], part) :: (places parts).map (Prod.map (part :: ·) id) := by
  rw [places, List.inits_cons, List.zip_cons_cons, List.zip_map_left, places]

/-- Behind the first part everything stands further back, by what is laid down for it. -/
theorem fronts_cons (wanted gap : Text) (b : Bracketed) (parts : List (Text × Bracketed)) :
    fronts wanted ((gap, b) :: parts) =
      (if b.Vanishes wanted then [gap] else []) ++
        (fronts wanted parts).map (gap ++ (b.prune wanted).text ++ ·) := by
  have later :
      (((places parts).map (Prod.map ((gap, b) :: ·) id)).filter
          fun place => place.2.2.Vanishes wanted).map
            (fun place => Pruned.written (pruneParts wanted place.1) ++ place.2.1) =
        (fronts wanted parts).map (gap ++ (b.prune wanted).text ++ ·) := by
    rw [List.filter_map, List.map_map, fronts, List.map_map]
    apply List.map_congr_left
    intro place _
    simp [pruneParts_cons]
  rw [← later, fronts, places_cons]
  by_cases gone : b.Vanishes wanted
  · rw [if_pos gone, List.filter_cons_of_pos (by simpa using gone)]
    rfl
  · rw [if_neg gone, List.filter_cons_of_neg (by simpa using gone), List.nil_append]

/-- The positions are the lengths of what stands in front. -/
theorem removals_pruneParts (wanted : Text) (offset : Nat) (parts : List (Text × Bracketed)) :
    Pruned.removals offset (pruneParts wanted parts) =
      (fronts wanted parts).map fun front => offset + front.length := by
  induction parts generalizing offset with
  | nil => rfl
  | cons part parts ih =>
      rcases part with ⟨gap, b⟩
      -- The other parts are laid down behind the gap and what became of its list.
      have later := ih (offset + gap.length + (b.prune wanted).text.length)
      have moved : (fronts wanted parts).map
            (fun front => offset + gap.length + (b.prune wanted).text.length + front.length) =
          ((fronts wanted parts).map (gap ++ (b.prune wanted).text ++ ·)).map
            fun front => offset + front.length := by
        simp [Function.comp_def, Nat.add_assoc]
      rw [fronts_cons, List.map_append, ← moved, ← later, pruneParts_cons, Pruned.removals]
      by_cases gone : b.Vanishes wanted
      · rw [if_pos gone, if_pos (Bracketed.vanished_prune_iff.mpr gone)]
        rfl
      · rw [if_neg gone, if_neg (mt Bracketed.vanished_prune_iff.mp gone)]
        rfl

theorem mem_places_iff {before parts : List (Text × Bracketed)} {part : Text × Bracketed} :
    (before, part) ∈ places parts ↔ ∃ after, parts = before ++ part :: after := by
  induction parts generalizing before with
  | nil => simp [places]
  | cons first parts ih =>
      rw [places_cons, List.mem_cons]
      constructor
      · rintro (same | later)
        · obtain ⟨rfl, rfl⟩ := Prod.mk.inj same
          exact ⟨parts, rfl⟩
        · obtain ⟨⟨before, other⟩, inside, same⟩ := List.mem_map.mp later
          obtain ⟨rfl, rfl⟩ := Prod.mk.inj same
          obtain ⟨after, rfl⟩ := ih.mp inside
          exact ⟨after, rfl⟩
      · rintro ⟨after, split⟩
        rcases List.cons_eq_append_iff.mp split with ⟨rfl, same⟩ | ⟨before, rfl, split⟩
        · obtain ⟨rfl, -⟩ := List.cons.inj same
          exact .inl rfl
        · have inside := ih.mpr ⟨after, (List.cons.inj split).2⟩
          exact .inr (List.mem_map.mpr ⟨_, inside, rfl⟩)

theorem mem_fronts_iff {wanted front : Text} {parts : List (Text × Bracketed)} :
    front ∈ fronts wanted parts ↔
      ∃ before gap b after, parts = before ++ (gap, b) :: after ∧ b.Vanishes wanted ∧
        front = Pruned.written (pruneParts wanted before) ++ gap := by
  simp only [fronts, List.mem_map, List.mem_filter, decide_eq_true_eq]
  constructor
  · rintro ⟨⟨before, gap, b⟩, ⟨inside, gone⟩, rfl⟩
    obtain ⟨after, split⟩ := mem_places_iff.mp inside
    exact ⟨before, gap, b, after, split, gone, rfl⟩
  · rintro ⟨before, gap, b, after, split, gone, rfl⟩
    exact ⟨(before, gap, b), ⟨mem_places_iff.mpr ⟨after, split⟩, gone⟩, rfl⟩

theorem prefix_of_mem_fronts {wanted front : Text} {parts : List (Text × Bracketed)}
    (inside : front ∈ fronts wanted parts) :
    front <+: Pruned.written (pruneParts wanted parts) := by
  obtain ⟨before, gap, b, after, rfl, -, rfl⟩ := mem_fronts_iff.mp inside
  rw [pruneParts_append, pruneParts_cons, Pruned.written_append, Pruned.written_cons,
    ← List.append_assoc]
  exact List.prefix_append _ _

end Layout

namespace Text

/-- The draft notes, for each list that goes away without a trace, the length of the new text
in front of it, and by these positions the new text is collapsed. They never decrease and lie
within it, so halving finds what a look at each of them would: a line counts as emptied exactly
if it is blank and one of them lies on it. These marks decide what becomes of each run of
blank lines. -/
theorem removals_mark_emptied_lines (name : AttributeName) (t : Text) :
    let fronts := Layout.fronts name.text (Layout.ofText t).parts
    let kept := (t.prune name false).text
    let positions := (Draft.ofText name.text t).removals.toList
    t.prune name true = ⟨kept.collapse positions, (t.prune name false).removed⟩ ∧
      positions = fronts.map List.length ∧
      (∀ front ∈ fronts, front <+: kept) ∧
      (∀ position ∈ positions, position ≤ kept.length) ∧
      positions.Pairwise (· ≤ ·) ∧
      (∀ first last, holdsPosition positions.toArray first last =
        positions.any fun position => first ≤ position && position ≤ last) ∧
      (∀ marked, kept.Marked (· ∈ positions) marked ↔
        marked = MarkedLine.mark positions.toArray 0 kept.lines) ∧
      kept.collapse positions =
        (MarkedLine.runs (MarkedLine.mark positions.toArray 0 kept.lines)).flatMap
          MarkedLine.settle := by
  intro fronts kept positions
  have noted : positions = Pruned.removals 0 ((Layout.ofText t).prune name.text) :=
    (Draft.covers_ofText name.text t).removals
  have ordered : positions.Pairwise (· ≤ ·) := noted ▸ Pruned.pairwise_removals 0 _
  have laid : kept = (Layout.ofText t).pruned name.text := congrArg Pruned.text (prune_eq ..)
  have measured : positions = fronts.map List.length := by
    rw [noted, Layout.prune, Layout.removals_pruneParts]
    simp only [Nat.zero_add, fronts]
  have inside : ∀ front ∈ fronts, front <+: kept := by
    intro front among
    rw [laid]
    exact (Layout.prefix_of_mem_fronts among).trans (List.prefix_append _ _)
  refine ⟨prune_true_eq name t, measured, inside, ?_, ordered,
    fun _ _ => holdsPosition_eq_any ordered, fun _ => marked_iff ordered fun _ => Iff.rfl,
    collapse_eq_flatMap_runs kept positions⟩
  intro position among
  rw [measured] at among
  obtain ⟨front, listed, rfl⟩ := List.mem_map.mp among
  exact (inside front listed).length_le

/-- Lists that leave their comment, or some entry, are not noted. -/
example :
    (Draft.ofText (ofString "T") (ofString "[A] [T]\n[T][T] // c\n[T, A]")).removals.toList =
      [4, 5] := by
  decide +kernel

end Text

end AttributeLists
