/-
# Pruning invents nothing

A list that is written anew has new brackets, commas and a new colon, but each of them
stands for one of the list as it was, and only the spaces after them can be additional.
So with all spaces left out the new text is a part of the old one, in the same order.
-/

import AttributeLists.Proofs.Listing.Renewed

namespace AttributeLists

/-- The text without its spaces. Other blanks stay. -/
def Text.spaceless (t : Text) : Text :=
  t.filter (· != .char ' ')

namespace Text

@[simp]
theorem spaceless_append (t u : Text) : spaceless (t ++ u) = t.spaceless ++ u.spaceless :=
  List.filter_append ..

theorem spaceless_cons_of_ne {g : Glyph} (shows : g ≠ .char ' ') (t : Text) :
    spaceless (g :: t) = g :: t.spaceless := by
  simp [spaceless, shows]

end Text

namespace Bracketed

open Text

/-- Some of the entries of a list, trimmed, join to a part of its listing. -/
theorem spaceless_intercalate_sublist {b : Bracketed} {entries : List Entry} {kept : List Text}
    (divided : b.entries? = some entries)
    (chosen : List.SublistForall₂ List.Sublist kept entries) :
    (spaceless (List.intercalate (Text.ofString ", ") kept)).Sublist b.listing.spaceless := by
  have commas : (Text.ofString ", ").spaceless = spaceless [.char ','] := by decide
  have respaced : spaceless (List.intercalate (Text.ofString ", ") kept) =
      spaceless (List.intercalate [.char ','] kept) := by
    rw [spaceless, filter_intercalate, spaceless, filter_intercalate]
    exact congrArg (List.intercalate · _) commas
  rw [respaced, ← intercalate_of_splitEntries divided]
  exact (intercalate_sublist chosen).filter _

/-- The target of a list and its colon are a part of what stands in front of its listing. -/
theorem spaceless_targetText_append_sublist (b : Bracketed) {written : Text}
    (part : written.spaceless.Sublist b.listing.spaceless) :
    (targetText b.target? ++ written).spaceless.Sublist b.body.spaceless := by
  rcases target?_cases b with ⟨untargeted, all⟩ | ⟨lead, target, space, targeted, targets⟩
  · rw [untargeted, ← all]
    exact part
  · have colon : (Text.ofString ": ").spaceless = [.char ':'] := by decide
    have front : (targetText (some target)).spaceless.Sublist
        (spaceless (lead ++ (target ++ (space ++ [.char ':'])))) := by
      simp only [targetText, spaceless_append, colon]
      refine List.Sublist.trans ?_ (List.sublist_append_right _ _)
      exact (List.Sublist.refl _).append (List.sublist_append_right _ _)
    rw [targeted, targets.body_eq, spaceless_append, spaceless_append]
    exact front.append part

theorem spaceless_source (b : Bracketed) :
    b.source.spaceless =
      .char '[' :: (b.body.spaceless ++
        spaceless (.char ']' :: (b.space ++ b.comment))) := by
  simp [source, spaceless_cons_of_ne]

/-- What becomes of a list is a part of it, up to spaces. -/
theorem spaceless_prune_sublist (wanted : Text) (b : Bracketed) :
    (b.prune wanted).text.spaceless.Sublist b.source.spaceless := by
  rcases prune_cases wanted b with stays | ⟨entries, divided, vanishes | ⟨-, shortened⟩⟩
  · rw [stays]
  · rw [vanishes, source, spaceless_append]
    exact List.sublist_append_right _ _
  · have body := spaceless_targetText_append_sublist b
      (spaceless_intercalate_sublist divided (sublistForall₂_remaining wanted entries))
    rw [shortened, spaceless_source, spaceless_source]
    exact .cons_cons _ (body.append (.refl _))

end Bracketed

/-- What becomes of a layout is a part of its source, up to spaces. -/
theorem Layout.spaceless_pruned_sublist (wanted : Text) (l : Layout) :
    (l.pruned wanted).spaceless.Sublist l.source.spaceless := by
  rcases l with ⟨parts, tail⟩
  simp only [pruned, prune, source_eq, Text.spaceless_append]
  refine List.Sublist.append ?_ (.refl _)
  induction parts with
  | nil => exact .refl _
  | cons part parts ih =>
      rcases part with ⟨gap, b⟩
      have list := Bracketed.spaceless_prune_sublist wanted b
      simp only [pruneParts, List.map_cons, Pruned.written_cons, partsSource_cons,
        Text.spaceless_append] at ih ⊢
      exact (List.Sublist.refl _).append (list.append ih)

namespace Text

theorem spaceless_collapse_sublist (t : Text) (removals : List Nat) :
    (t.collapse removals).spaceless.Sublist t.spaceless :=
  (collapse_sublist t removals).filter _

/-- Pruning brings in no glyph but spaces. -/
theorem mem_of_mem_text_prune {name : AttributeName} {collapse : Bool} {t : Text} {g : Glyph}
    (inside : g ∈ (t.prune name collapse).text) : g ∈ t ∨ g = .char ' ' := by
  by_cases space : g = .char ' '
  · exact .inr space
  · have pruned : g ∈ (Layout.ofText t).pruned name.text → g ∈ t := by
      intro written
      have part := ((Layout.ofText t).spaceless_pruned_sublist name.text).subset
        (List.mem_filter.mpr ⟨written, bne_iff_ne.mpr space⟩)
      rw [Layout.source_ofText] at part
      exact (List.mem_filter.mp part).1
    refine .inl (text_prune_of_pruned (P := fun u => g ∈ u → g ∈ t) pruned ?_ inside)
    exact fun u removals before kept => before ((collapse_sublist u removals).subset kept)

/-- Pruning invents, doubles and reorders nothing: without spaces, the new text is a part
of the old one. -/
theorem spaceless_text_prune_sublist (name : AttributeName) (collapse : Bool) (t : Text) :
    (t.prune name collapse).text.spaceless.Sublist t.spaceless := by
  have pruned := (Layout.ofText t).spaceless_pruned_sublist name.text
  rw [Layout.source_ofText] at pruned
  exact text_prune_of_pruned pruned fun u removals part =>
    (spaceless_collapse_sublist u removals).trans part

end Text

end AttributeLists
