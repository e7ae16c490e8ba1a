/-
# Entries joined again

Dividing a body loses nothing but the commas that divide it, and joining the entries
with commas gives the body back. What holds of a join can be said entry by entry:
each separator is charged to the entry in front of it, so a join of fewer or shorter
entries is a part of the join of all.
-/

import Mathlib.Data.List.Forall2
import AttributeLists.Proofs.Listing.Commas

namespace AttributeLists

namespace Text

/-- What holds of the texts and of the separator, and of two texts put together, holds
of the join. -/
theorem intercalate_induction {P : Text → Prop} (nil : P [])
    (append : ∀ t u, P t → P u → P (t ++ u)) {sep : Text} (separator : P sep)
    {texts : List Text} (each : ∀ t ∈ texts, P t) : P (List.intercalate sep texts) := by
  induction texts with
  | nil => exact nil
  | cons first more ih =>
      have first_holds := each first List.mem_cons_self
      have more_holds := ih fun t inside => each t (List.mem_cons_of_mem first inside)
      by_cases single : more = []
      · rwa [single, List.intercalate_singleton]
      · rw [List.intercalate_cons_of_ne_nil single]
        exact append _ _ (append _ _ first_holds separator) more_holds

theorem filter_intercalate (p : Glyph → Bool) (sep : Text) (texts : List Text) :
    (List.intercalate sep texts).filter p =
      List.intercalate (sep.filter p) (texts.map (List.filter p)) := by
  induction texts with
  | nil => rfl
  | cons first more ih =>
      by_cases single : more = []
      · simp [single]
      · have more_single : more.map (List.filter p) ≠ [] := by simpa using single
        rw [List.map_cons, List.intercalate_cons_of_ne_nil single,
          List.intercalate_cons_of_ne_nil more_single, List.filter_append, List.filter_append, ih]

/-- Some of the texts, each perhaps shortened, join to a part of the whole join. -/
theorem intercalate_sublist {sep : Text} {texts others : List Text}
    (chosen : List.SublistForall₂ List.Sublist texts others) :
    (List.intercalate sep texts).Sublist (List.intercalate sep others) := by
  induction chosen with
  | nil => exact List.nil_sublist _
  | @cons first other more others shorter chosen ih =>
      by_cases single : more = []
      · subst single
        rw [List.intercalate_singleton]
        by_cases other_single : others = []
        · rwa [other_single, List.intercalate_singleton]
        · rw [List.intercalate_cons_of_ne_nil other_single, List.append_assoc]
          exact shorter.trans (List.sublist_append_left _ _)
      · have other_single : others ≠ [] := by
          rintro rfl
          cases chosen
          contradiction
        rw [List.intercalate_cons_of_ne_nil single, List.intercalate_cons_of_ne_nil other_single]
        exact (shorter.append (.refl sep)).append ih
  | @cons_right other texts others chosen ih =>
      by_cases other_single : others = []
      · subst other_single
        cases chosen
        exact List.nil_sublist _
      · rw [List.intercalate_cons_of_ne_nil other_single]
        exact ih.trans (List.sublist_append_right _ _)

/-- Some of the texts, trimmed, are some of the texts, each perhaps shortened. -/
theorem sublistForall₂_map_trim (p : Text → Bool) (texts : List Text) :
    List.SublistForall₂ List.Sublist ((texts.filter p).map trim) texts := by
  rw [List.sublistForall₂_iff]
  refine ⟨texts.filter p, ?_, List.filter_sublist⟩
  rw [List.forall₂_map_left_iff, List.forall₂_same]
  exact fun t _ => trim_sublist t

end Text

namespace Commas

/-- The commas between the pieces are all that dividing a text takes out of it. -/
theorem FallsInto.intercalate_eq {s : State} {t : Text} {pieces : List Text}
    (falls : FallsInto s t pieces) : List.intercalate [.char ','] pieces = t := by
  induction falls with
  | ends closed => rfl
  | comma closed later ih =>
      rw [List.intercalate_cons_of_ne_nil later.ne_nil, ih]
      rfl
  | @glyph _ _ _ _ _ pieces undivided stepped later ih =>
      rw [← ih]
      by_cases single : pieces = []
      · simp [single]
      · rw [List.intercalate_cons_of_ne_nil single, List.intercalate_cons_of_ne_nil single]
        rfl

end Commas

/-- Joining the entries of a body with commas gives it back. -/
theorem intercalate_of_splitEntries {body : Text} {entries : List Text}
    (divided : splitEntries body = some entries) :
    List.intercalate [.char ','] entries = body :=
  (Commas.piecesFrom_eq_some_iff.mp divided).intercalate_eq

/-- Dividing a body is undone by a join. A comma behind the body divides as well, and what
follows it is divided on its own. So each entry is a body of its own, with itself as its
only entry. -/
theorem splitEntries_append_comma {front : Text} {entries : List Text}
    (divided : splitEntries front = some entries) :
    List.intercalate [.char ','] entries = front ∧
      (∀ back, splitEntries (front ++ .char ',' :: back) =
        (splitEntries back).map (entries ++ ·)) ∧
      ∀ e ∈ entries, splitEntries e = some [e] := by
  refine ⟨intercalate_of_splitEntries divided, ?_, ?_⟩
  · exact Commas.piecesFrom_append_comma divided
  · exact whole_of_splitEntries divided

/-- Neither a verbatim literal that ends in a backslash nor a parenthesis in a literal
reaches over the comma behind it, whatever follows. -/
theorem splitEntries_append_comma_after_literals :
    let front := Text.ofString "A(@\"C:\\\", '(', \"x,\\\"y\"), @$"
    let entries := [Text.ofString "A(@\"C:\\\", '(', \"x,\\\"y\")", Text.ofString " @$"]
    splitEntries front = some entries ∧
      List.intercalate [.char ','] entries = front ∧
      (∀ back, splitEntries (front ++ .char ',' :: back) =
        (splitEntries back).map (entries ++ ·)) ∧
      ∀ e ∈ entries, splitEntries e = some [e] := by
  intro front entries
  have divided : splitEntries front = some entries := by decide +kernel
  exact ⟨divided, splitEntries_append_comma divided⟩

end AttributeLists
