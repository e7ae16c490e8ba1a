/-
# Short names of spelled names

The short name of a name is the stem of its last identifier, however the name is spelled:
no identifier holds a dot or a colon, so only the separators of the name divide it. In a
name without blanks the last identifier is what stands behind the last separator.
-/

import Mathlib.Data.List.Infix
import AttributeLists.Name.Short
import AttributeLists.Proofs.Name.Spelling

namespace AttributeLists

open Qualified

namespace Short

/-- A segment with one suffix `Attribute` less if it has the suffix and is longer than it, and
the segment itself otherwise. -/
inductive IsStem : Text → Text → Prop
  | suffixed {stem : Text} (longer : stem ≠ []) : IsStem (stem ++ Text.ofString "Attribute") stem
  | bare {segment : Text}
      (unsuffixed : ∀ stem, segment = stem ++ Text.ofString "Attribute" → stem = []) :
      IsStem segment segment

private theorem isSuffixOf?_eq_some_iff {back t stem : Text} :
    back.isSuffixOf? t = some stem ↔ t = stem ++ back := by
  rw [List.isSuffixOf?, Option.map_eq_some_iff]
  constructor
  · rintro ⟨rest, found, rfl⟩
    rw [Text.isPrefixOf?_eq_some_iff] at found
    simpa using congrArg List.reverse found
  · rintro rfl
    exact ⟨stem.reverse, Text.isPrefixOf?_eq_some_iff.mpr (by simp), by simp⟩

theorem isStem_iff {segment stem : Text} : IsStem segment stem ↔ stem = withoutSuffix segment := by
  constructor
  · intro is_stem
    cases is_stem with
    | suffixed longer =>
        obtain ⟨g, more, rfl⟩ := List.exists_cons_of_ne_nil longer
        rw [withoutSuffix, suffix, isSuffixOf?_eq_some_iff.mpr rfl]
    | bare unsuffixed =>
        unfold withoutSuffix suffix
        split
        · rename_i g more found
          exact absurd (unsuffixed _ (isSuffixOf?_eq_some_iff.mp found)) (by simp)
        · rfl
  · rintro rfl
    unfold withoutSuffix suffix
    split
    · rename_i g more found
      have longer := IsStem.suffixed (List.cons_ne_nil g more)
      rwa [← isSuffixOf?_eq_some_iff.mp found] at longer
    · rename_i short
      refine .bare fun stem suffixed => ?_
      cases stem with
      | nil => rfl
      | cons g more => exact absurd (isSuffixOf?_eq_some_iff.mpr suffixed) (short g more)

theorem segments_ne_nil (t : Text) : segments t ≠ [] := by
  fun_cases segments t <;> simp

/-- A glyph that starts no separator is put in front of the first piece. -/
theorem segments_cons {g : Glyph} {rest first : Text} {more : List Text}
    (undotted : g ≠ .char '.')
    (uncoloned : ∀ after, g = .char ':' → rest = .char ':' :: after → False)
    (divided : segments rest = first :: more) :
    segments (g :: rest) = (g :: first) :: more := by
  rw [segments.eq_4 g rest undotted uncoloned, divided]

/-- A dot divides whatever stands in front of it. -/
theorem segments_append_dot (front rest : Text) :
    segments (front ++ .char '.' :: rest) = segments front ++ segments rest := by
  fun_induction segments front with
  | case1 => rfl
  | case2 front ih => rw [List.cons_append, segments, ih, List.cons_append]
  | case3 front ih => rw [List.cons_append, List.cons_append, segments, ih, List.cons_append]
  | case4 g front undotted uncoloned none ih => exact absurd none (segments_ne_nil front)
  | case5 g front undotted uncoloned first more found ih =>
      rw [found, List.cons_append] at ih
      refine segments_cons undotted (fun after colon double => ?_) ih
      cases front with
      | nil => exact absurd (List.cons.inj double).1 (by decide)
      | cons other front =>
          obtain ⟨rfl, -⟩ := List.cons.inj double
          exact uncoloned front colon rfl

theorem segments_globalMark_append (rest : Text) :
    segments (globalMark ++ rest) = Text.ofString "global" :: segments rest := rfl

theorem segments_of_not_mem {t : Text} (undotted : .char '.' ∉ t) (uncoloned : .char ':' ∉ t) :
    segments t = [t] := by
  induction t with
  | nil => rfl
  | cons g t ih =>
      rw [List.mem_cons, not_or] at undotted uncoloned
      refine segments_cons (Ne.symm undotted.1) (fun after colon _ => ?_)
        (ih undotted.2 uncoloned.2)
      exact uncoloned.1 colon.symm

/-- What stands behind the last separator of a name, or the whole name if it has none. -/
structure IsLastSegment (name last : Text) : Prop where
  separated : ∃ front, name = front ++ last ∧
    (front = [] ∨ Text.ofString "." <:+ front ∨ Text.ofString "::" <:+ front)
  undotted : .char '.' ∉ last
  uncoloned : ¬ Text.ofString "::" <:+: last

end Short

namespace Qualified.Spelling

open Short

theorem exists_spelled_last (n : Spelling) : IsIdentifier n.last := by
  rw [last]
  cases n.more.getLast? with
  | none => exact n.spelled
  | some s => exact s.spelled

theorem not_mem_last (n : Spelling) {c : Char}
    (unstarting : (Glyph.char c).startsIdentifier = false)
    (unword : (Glyph.char c).isWord = false) : .char c ∉ n.last :=
  fun inside => n.exists_spelled_last.ne_char unstarting unword _ inside rfl

/-- The last identifier stands alone, behind the mark of the outermost scope, or behind a
dot and blanks. -/
theorem exists_text_eq_append_last (n : Spelling) :
    ∃ front, n.text = front ++ n.last ∧
      (front = [] ∨ front = globalMark ∨
        ∃ before after : Text, front = before ++ .char '.' :: after ∧ after.isBlank = true) := by
  rcases List.eq_nil_or_concat n.more with none | ⟨segments, s, more⟩
  · refine ⟨if n.marked then globalMark else [], ?_, ?_⟩
    · simp [text, unmarked, last, none]
    · cases n.marked <;> simp
  · refine ⟨_, ?_, .inr (.inr ⟨(if n.marked then globalMark else []) ++
      (n.first ++ (segments.flatMap Segment.text ++ s.before)), s.after, rfl, s.after_blank⟩)⟩
    simp [text, unmarked, last, more, Segment.text]

/-- A name has the short name of its last identifier. -/
theorem shortName_text (n : Spelling) : shortName n.text = withoutSuffix n.last := by
  obtain ⟨front, whole, parts⟩ := n.exists_text_eq_append_last
  have last_bare : n.last.bare = n.last :=
    List.filter_eq_self.mpr fun g inside => by
      simp [n.exists_spelled_last.isBlank_eq_false g inside]
  have alone : segments n.last = [n.last] :=
    segments_of_not_mem (n.not_mem_last (by decide) (by decide))
      (n.not_mem_last (by decide) (by decide))
  have divided : (segments n.text.bare).getLastD [] = n.last := by
    rw [whole, Text.bare_append, last_bare]
    rcases parts with rfl | rfl | ⟨before, after, rfl, blank⟩
    · exact congrArg (List.getLastD · []) alone
    · have shows : globalMark.bare = globalMark := by decide
      rw [shows, segments_globalMark_append, alone]
      rfl
    · have dot : Text.bare (before ++ .char '.' :: after) = before.bare ++ [.char '.'] := by
        rw [Text.bare_append, ← List.singleton_append, Text.bare_append,
          Text.bare_eq_nil_iff.mpr blank]
        rfl
      rw [dot, List.append_assoc, List.singleton_append, segments_append_dot, alone]
      simp
  exact congrArg withoutSuffix divided

/-- In a name without blanks a dot or the mark stands right before the last identifier. -/
theorem exists_separated_last (n : Spelling) (shows : ∀ g ∈ n.text, g.isBlank = false) :
    ∃ front, n.text = front ++ n.last ∧
      (front = [] ∨ front = globalMark ∨ Text.ofString "." <:+ front) := by
  obtain ⟨front, whole, alone | marked | ⟨before, after, dotted, blank⟩⟩ :=
    n.exists_text_eq_append_last
  · exact ⟨front, whole, .inl alone⟩
  · exact ⟨front, whole, .inr (.inl marked)⟩
  · refine ⟨front, whole, .inr (.inr ⟨before, ?_⟩)⟩
    have unfollowed : after = [] := by
      rw [← Text.bare_eq_nil_iff, Text.bare, List.filter_eq_self.mpr] at blank
      · exact blank
      · intro g inside
        simp [shows g (by simp [whole, dotted, inside])]
    rw [dotted, unfollowed]
    rfl

private theorem mem_of_suffix_append {front run : Text} {g : Glyph} (nonempty : run ≠ [])
    (ends : [g] <:+ front ++ run) : g ∈ run := by
  obtain ⟨before, whole⟩ := ends
  have last := congrArg List.getLast? whole
  rw [List.getLast?_append_of_ne_nil _ nonempty] at last
  exact List.mem_of_getLast? (by simpa using last.symm)

/-- Cut before its end, the mark has a separator in front of the cut only if it leaves one
behind it. -/
private theorem colons_infix_of_globalMark {front back : Text} (cut : globalMark = front ++ back)
    (nonempty : back ≠ [])
    (ends : front = [] ∨ Text.ofString "." <:+ front ∨ Text.ofString "::" <:+ front) :
    Text.ofString "::" <:+: back := by
  have cuts : ∀ size < globalMark.length,
      (globalMark.take size = [] → Text.ofString "::" <:+: globalMark.drop size) ∧
      ¬ Text.ofString "." <:+ globalMark.take size ∧
      ¬ Text.ofString "::" <:+ globalMark.take size := by decide
  have size : front.length < globalMark.length := by
    have positive := List.length_pos_iff.mpr nonempty
    rw [cut, List.length_append]
    omega
  have parts := cuts _ size
  rw [cut, List.take_left, List.drop_left] at parts
  rcases ends with empty | dot | colons
  · exact parts.1 empty
  · exact absurd dot parts.2.1
  · exact absurd colons parts.2.2

/-- In a name without blanks the last identifier is the last segment. -/
theorem isLastSegment_iff (n : Spelling) (shows : ∀ g ∈ n.text, g.isBlank = false) {last : Text} :
    IsLastSegment n.text last ↔ last = n.last := by
  obtain ⟨front, whole, parts⟩ := n.exists_separated_last shows
  have undotted : .char '.' ∉ n.last := n.not_mem_last (by decide) (by decide)
  have uncoloned : .char ':' ∉ n.last := n.not_mem_last (by decide) (by decide)
  constructor
  · rintro ⟨⟨other, other_whole, ends⟩, last_undotted, last_uncoloned⟩
    rcases List.append_eq_append_iff.mp (whole.symm.trans other_whole) with
      ⟨run, rfl, rest⟩ | ⟨run, rfl, rest⟩
    · -- A separator that ends the longer front would be a part of the identifier.
      by_cases unmoved : run = []
      · simpa [unmoved] using rest.symm
      · rcases ends with empty | dot | colons
        · exact absurd (List.append_eq_nil_iff.mp empty).2 unmoved
        · have inside : .char '.' ∈ run := mem_of_suffix_append unmoved dot
          exact absurd (by simp [rest, inside]) undotted
        · have inside : .char ':' ∈ run :=
            mem_of_suffix_append unmoved ((List.suffix_cons _ _).trans colons)
          exact absurd (by simp [rest, inside]) uncoloned
    · by_cases unmoved : run = []
      · simpa [unmoved] using rest
      · rcases parts with alone | marked | dot
        · exact absurd (List.append_eq_nil_iff.mp alone).2 unmoved
        · -- The segment would hold the colons that the cut mark leaves to it.
          have colons := colons_infix_of_globalMark marked.symm unmoved ends
          exact absurd (colons.trans (rest ▸ List.infix_append [] run n.last)) last_uncoloned
        · have inside : .char '.' ∈ run := mem_of_suffix_append unmoved dot
          exact absurd (by simp [rest, inside]) last_undotted
  · rintro rfl
    refine ⟨⟨front, whole, ?_⟩, undotted, ?_⟩
    · rcases parts with alone | marked | dotted
      · exact .inl alone
      · exact .inr (.inr ⟨Text.ofString "global", marked ▸ rfl⟩)
      · exact .inr (.inl dotted)
    · exact fun double => uncoloned (double.subset (by decide))

end Qualified.Spelling

/-- An attribute name is spelled as a name without blanks. -/
theorem AttributeName.exists_spelling (name : AttributeName) :
    ∃ n : Spelling, n.text = name.text ∧ ∀ g ∈ name.text, g.isBlank = false := by
  obtain ⟨t, valid⟩ := name
  simp only [isAttributeName, Bool.and_eq_true, beq_iff_eq, Bool.not_eq_true'] at valid
  obtain ⟨n, written⟩ := Spelling.exists_of_readName valid.1
  refine ⟨n, written, ?_⟩
  simpa using valid.2

end AttributeLists
