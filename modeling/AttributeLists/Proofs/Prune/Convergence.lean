/-
# Pruning again and again

A list has one opening bracket and one comma less than it has entries, so every entry
that is taken out can be charged to a bracket or a comma that goes away with it. The
length of a text is no such measure: a comma can come back with a space.

Since brackets and commas are never added, a text can lose only as many entries as it
has of both, over any number of runs. Runs for one attribute come to an end, also where
a single one does not do all the work.
-/

import Mathlib.Logic.Function.Iterate
import AttributeLists.Proofs.Listing.Renewed

namespace AttributeLists

namespace Text

/-- The number of opening brackets and commas of a text. -/
def entryMarks (t : Text) : Nat :=
  t.count (.char '[') + t.count (.char ',')

@[simp]
theorem entryMarks_nil : entryMarks [] = 0 := rfl

@[simp]
theorem entryMarks_append (t u : Text) : entryMarks (t ++ u) = t.entryMarks + u.entryMarks := by
  simp only [entryMarks, List.count_append]
  omega

theorem entryMarks_le_of_sublist {t u : Text} (part : t.Sublist u) :
    t.entryMarks ≤ u.entryMarks :=
  Nat.add_le_add (part.count_le _) (part.count_le _)

theorem entryMarks_eq_zero {t : Text} (unopened : .char '[' ∉ t) (undivided : .char ',' ∉ t) :
    t.entryMarks = 0 := by
  rw [entryMarks, List.count_eq_zero_of_not_mem unopened, List.count_eq_zero_of_not_mem undivided]

/-- A join of texts has one separator less than there are texts. -/
theorem entryMarks_intercalate {sep : Text} (single : sep.entryMarks = 1) {texts : List Text}
    (nonempty : texts ≠ []) :
    entryMarks (List.intercalate sep texts) + 1 =
      (texts.map entryMarks).sum + texts.length := by
  induction texts with
  | nil => contradiction
  | cons first more ih =>
      by_cases last : more = []
      · simp [last]
      · have rest := ih last
        rw [List.intercalate_cons_of_ne_nil last]
        simp only [entryMarks_append, List.map_cons, List.sum_cons, List.length_cons]
        omega

theorem sum_entryMarks_le {texts others : List Text}
    (chosen : List.SublistForall₂ List.Sublist texts others) :
    (texts.map entryMarks).sum ≤ (others.map entryMarks).sum := by
  induction chosen with
  | nil => exact Nat.zero_le _
  | cons shorter chosen ih => exact Nat.add_le_add (entryMarks_le_of_sublist shorter) ih
  | cons_right chosen ih => exact ih.trans (Nat.le_add_left _ _)

end Text

namespace Bracketed

open Text

theorem entryMarks_source (b : Bracketed) :
    b.source.entryMarks =
      1 + b.body.entryMarks + b.space.entryMarks + b.comment.entryMarks := by
  have opening : entryMarks [.char '['] = 1 := by decide
  have closing : entryMarks [.char ']'] = 0 := by decide
  have whole : b.source =
      [.char '['] ++ b.body ++ ([.char ']'] ++ b.space) ++ b.comment := by
    simp [source]
  simp only [whole, entryMarks_append, opening, closing]
  omega

theorem entryMarks_listing_le (b : Bracketed) : b.listing.entryMarks ≤ b.body.entryMarks := by
  rcases target?_cases b with ⟨-, all⟩ | ⟨lead, target, space, -, targets⟩
  · rw [all]
  · rw [targets.body_eq, entryMarks_append]
    exact Nat.le_add_left _ _

theorem entryMarks_targetText (b : Bracketed) : (targetText b.target?).entryMarks = 0 := by
  rcases target?_cases b with ⟨untargeted, -⟩ | ⟨lead, target, space, targeted, targets⟩
  · rw [untargeted]
    rfl
  · have colon : (Text.ofString ": ").entryMarks = 0 := by decide
    have unmarked : target.entryMarks = 0 := by
      apply entryMarks_eq_zero
      · exact fun inside => targets.identifier.ne_char (c := '[') rfl (by decide) _ inside rfl
      · exact fun inside => targets.identifier.ne_char (c := ',') rfl (by decide) _ inside rfl
    rw [targeted, targetText, entryMarks_append, unmarked, colon]

/-- A divided list has as many entries as opening brackets and dividing commas. -/
theorem sum_entryMarks_add_length {b : Bracketed} {entries : List Entry}
    (divided : b.entries? = some entries) :
    (entries.map entryMarks).sum + entries.length ≤ b.body.entryMarks + 1 := by
  have nonempty : entries ≠ [] := (Commas.piecesFrom_eq_some_iff.mp divided).ne_nil
  have comma : entryMarks [.char ','] = 1 := by decide
  have joined := entryMarks_intercalate comma nonempty
  rw [intercalate_of_splitEntries divided] at joined
  have inside := entryMarks_listing_le b
  omega

theorem entryMarks_source_renewed (b : Bracketed) {kept : List Text} (something : kept ≠ []) :
    (b.renewed kept).source.entryMarks =
      (kept.map entryMarks).sum + kept.length + b.space.entryMarks + b.comment.entryMarks := by
  have separator : (Text.ofString ", ").entryMarks = 1 := by decide
  have joined := entryMarks_intercalate separator something
  have written := entryMarks_source (b.renewed kept)
  simp only [renewed, entryMarks_append, entryMarks_targetText] at written ⊢
  omega

theorem length_remaining_add_countP_le (wanted : Text) (entries : List Entry) :
    (remaining wanted entries).length + entries.countP (Entry.applies wanted) ≤
      entries.length := by
  have shown_le : (entries.filter fun e : Entry => !e.applies wanted && !Text.isBlank e).length ≤
      entries.countP fun e => !Entry.applies wanted e := by
    rw [← List.countP_eq_length_filter]
    apply List.countP_mono_left
    intro e _ shown
    exact (Bool.and_eq_true_iff.mp shown).1
  have all := @List.length_eq_countP_add_countP _ (Entry.applies wanted) entries
  simp only [Bool.not_eq_true, Bool.decide_eq_false] at all
  rw [remaining_eq, List.length_map]
  omega

/-- Each entry that a list loses is charged to a bracket or a comma of the list. -/
theorem entryMarks_prune_add_removed_le (wanted : Text) (b : Bracketed) :
    (b.prune wanted).text.entryMarks + (b.prune wanted).removed ≤ b.source.entryMarks := by
  rcases prune_cases wanted b with
    stays | ⟨entries, divided, vanishes | ⟨something, shortened⟩⟩
  · rw [stays]
    exact Nat.le_refl _
  · have marks := sum_entryMarks_add_length divided
    have removed_le : entries.countP (Entry.applies wanted) ≤ entries.length :=
      List.countP_le_length
    rw [vanishes, entryMarks_source]
    dsimp only
    omega
  · have marks := sum_entryMarks_add_length divided
    have parted := length_remaining_add_countP_le wanted entries
    have sums := sum_entryMarks_le (sublistForall₂_remaining wanted entries)
    rw [shortened, entryMarks_source_renewed b something, entryMarks_source]
    dsimp only
    omega

end Bracketed

/-- The entries taken out of a layout are charged to its brackets and commas. -/
theorem Layout.entryMarks_pruned_add_total_le (wanted : Text) (l : Layout) :
    (l.pruned wanted).entryMarks + Pruned.total (l.prune wanted) ≤ l.source.entryMarks := by
  rcases l with ⟨parts, tail⟩
  simp only [pruned, prune, source_eq, Text.entryMarks_append]
  induction parts with
  | nil => exact Nat.le_refl _
  | cons part parts ih =>
      rcases part with ⟨gap, b⟩
      have list := Bracketed.entryMarks_prune_add_removed_le wanted b
      simp only [pruneParts, List.map_cons, Pruned.written_cons, Pruned.total, List.sum_cons,
        partsSource_cons, Text.entryMarks_append] at ih ⊢
      omega

namespace Text

/-- Runs one after the other, each for an attribute and with a setting of its own, and
the number of entries that all of them took out. -/
def pruneEach : List (AttributeName × Bool) → Text → Pruned
  | [], t => ⟨t, 0⟩
  | (name, collapse) :: runs, t =>
      let first := t.prune name collapse
      let later := pruneEach runs first.text
      ⟨later.text, first.removed + later.removed⟩

theorem entryMarks_prune_le (name : AttributeName) (collapse : Bool) (t : Text) :
    (t.prune name collapse).text.entryMarks + (t.prune name collapse).removed ≤
      t.entryMarks := by
  have pruned := (Layout.ofText t).entryMarks_pruned_add_total_le name.text
  rw [Layout.source_ofText] at pruned
  have removed : (t.prune name collapse).removed =
      Pruned.total ((Layout.ofText t).prune name.text) := by rw [prune_eq]
  rw [removed]
  refine text_prune_of_pruned (P := fun u => u.entryMarks + _ ≤ t.entryMarks) pruned ?_
  intro u removals bounded
  have collapsed := entryMarks_le_of_sublist (collapse_sublist u removals)
  omega

theorem entryMarks_pruneEach_le (runs : List (AttributeName × Bool)) (t : Text) :
    (pruneEach runs t).text.entryMarks + (pruneEach runs t).removed ≤ t.entryMarks := by
  induction runs generalizing t with
  | nil => exact Nat.le_refl _
  | cons run runs ih =>
      rcases run with ⟨name, collapse⟩
      have first := entryMarks_prune_le name collapse t
      have later := ih (t.prune name collapse).text
      simp only [pruneEach]
      omega

theorem text_prune_ne_iff (name : AttributeName) (collapse : Bool) (t : Text) :
    (t.prune name collapse).text ≠ t ↔ 0 < (t.prune name collapse).removed := by
  rw [Nat.pos_iff_ne_zero, not_iff_not]
  constructor
  · intro same
    have marks := entryMarks_prune_le name collapse t
    rw [same] at marks
    omega
  · intro unremoved
    rw [prune_of_removed_eq_zero unremoved]

/-- Each run that takes something out leaves fewer brackets and commas for the next. -/
theorem exists_iterate_prune_eq (name : AttributeName) (collapse : Bool) (t : Text) :
    ∃ rounds ≤ t.entryMarks,
      let settled := (fun u => (prune name collapse u).text)^[rounds] t
      settled.prune name collapse = ⟨settled, 0⟩ := by
  induction marks : t.entryMarks using Nat.strong_induction_on generalizing t with
  | _ n ih =>
      by_cases unremoved : (t.prune name collapse).removed = 0
      · exact ⟨0, Nat.zero_le n, prune_of_removed_eq_zero unremoved⟩
      · have fewer := entryMarks_prune_le name collapse t
        obtain ⟨rounds, bounded, settled⟩ :=
          ih (t.prune name collapse).text.entryMarks (by omega) _ rfl
        exact ⟨rounds + 1, by omega, settled⟩

/-- Brackets and commas bound what pruning can take out of a text: in one run, which
changes the text exactly if it takes something out, in any sequence of runs, and for one
attribute until nothing is left to take out. -/
theorem prune_converges (t : Text) :
    (∀ name collapse,
      (t.prune name collapse).text.entryMarks + (t.prune name collapse).removed ≤ t.entryMarks) ∧
    (∀ name collapse,
      (t.prune name collapse).text ≠ t ↔ 0 < (t.prune name collapse).removed) ∧
    (∀ runs, (t.pruneEach runs).removed ≤ t.entryMarks) ∧
    ∀ name collapse, ∃ rounds ≤ t.entryMarks,
      let settled := (fun u => (prune name collapse u).text)^[rounds] t
      settled.prune name collapse = ⟨settled, 0⟩ := by
  refine ⟨fun name collapse => entryMarks_prune_le name collapse t,
    fun name collapse => text_prune_ne_iff name collapse t, fun runs => ?_,
    fun name collapse => exists_iterate_prune_eq name collapse t⟩
  have bounded := entryMarks_pruneEach_le runs t
  omega

end Text

end AttributeLists
