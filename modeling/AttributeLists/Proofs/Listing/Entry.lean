/-
# How entries are spelled

An entry has a name exactly if it is spelled as a name between blanks, with or without
arguments in parentheses behind it. Each entry is spelled in one way at most, so its name
is a matter of its text and not of how the text is read.

An entry applies an attribute exactly if it is spelled with a name whose last identifier
has the stem of the last segment of the attribute. Nothing else of either name matters.
-/

import AttributeLists.Listing.Entry
import AttributeLists.Proofs.Listing.Respaced
import AttributeLists.Proofs.Name.Short

namespace AttributeLists

namespace Entry

/-- What stands between the parentheses behind a name, and the blanks behind them. -/
@[ext]
structure Arguments where
  content : Text
  trail : Text
  trail_blank : trail.isBlank = true

/-- The arguments as they are written. -/
def Arguments.text (a : Arguments) : Text :=
  .char '(' :: (a.content ++ .char ')' :: a.trail)

/-- The parts of an entry that has a name. Without arguments all blanks behind the name are
its own. -/
@[ext]
structure Spelling where
  lead : Text
  name : Qualified.Spelling
  space : Text
  arguments : Option Arguments
  lead_blank : lead.isBlank = true
  space_blank : space.isBlank = true

namespace Spelling

/-- What follows the name. -/
def rest (s : Spelling) : Text :=
  s.space ++ s.arguments.elim [] Arguments.text

/-- The entry as it is written. -/
def text (s : Spelling) : Text :=
  s.lead ++ (s.name.text ++ s.rest)

theorem head?_arguments {P : Glyph → Prop} (opening : P (.char '('))
    (arguments : Option Arguments) : ∀ g ∈ (arguments.elim [] Arguments.text).head?, P g := by
  cases arguments with
  | none => simp
  | some a => simpa [Arguments.text] using opening

theorem stops_rest (s : Spelling) : Qualified.Stops s.rest := by
  have trimmed : s.rest.trimStart = s.arguments.elim [] Arguments.text := by
    rw [rest, Text.trimStart_append_of_isBlank s.space_blank]
    exact Text.trimStart_eq_self (head?_arguments (by decide) s.arguments)
  refine ⟨?_, ?_, ?_⟩
  · exact Text.head?_append_isWord s.space_blank (head?_arguments (by decide) s.arguments)
  · rw [trimmed]
    exact head?_arguments (by decide) s.arguments
  · rw [trimmed]
    exact head?_arguments (by decide) s.arguments

theorem isArguments_rest (s : Spelling) : isArguments s.rest = true := by
  have space := Text.bare_eq_nil_iff.mpr s.space_blank
  rw [isArguments_eq, rest, Text.bare_append, space]
  cases s.arguments with
  | none => rfl
  | some a =>
      have shown : Text.bare a.text = .char '(' :: (a.content.bare ++ [.char ')']) := by
        have trail := Text.bare_eq_nil_iff.mpr a.trail_blank
        have whole : a.text = [.char '('] ++ (a.content ++ ([.char ')'] ++ a.trail)) := rfl
        rw [whole, Text.bare_append, Text.bare_append, Text.bare_append, trail]
        rfl
      simp [shown, List.getLast?_cons]

theorem trimStart_text (s : Spelling) : Text.trimStart s.text = s.name.text ++ s.rest := by
  rw [text, Text.trimStart_append_of_isBlank s.lead_blank,
    Text.trimStart_eq_self (s.name.head?_text_append_isBlank s.rest)]

theorem name?_text (s : Spelling) : name? s.text = some s.name.text := by
  rw [name?, trimStart_text, s.name.readName_text_append s.stops_rest]
  exact if_pos s.isArguments_rest

end Spelling

theorem exists_of_isArguments {t : Text} (closed : isArguments t = true) :
    ∃ (space : Text) (arguments : Option Arguments), space.isBlank = true ∧
      t = space ++ arguments.elim [] Arguments.text := by
  simp only [isArguments, Bool.or_eq_true, Bool.and_eq_true, beq_iff_eq, Text.isEmpty_trim]
    at closed
  rcases closed with blank | ⟨opening, closing⟩
  · exact ⟨t, none, blank, (List.append_nil t).symm⟩
  · obtain ⟨lead, trail, lead_blank, trail_blank, whole⟩ := Text.exists_eq_append_trim t
    obtain ⟨more, trimmed⟩ := List.head?_eq_some_iff.mp opening
    rw [trimmed] at closing whole
    rcases List.eq_nil_or_concat more with rfl | ⟨content, g, rfl⟩
    · exact absurd (Option.some.inj closing) (by decide)
    · obtain rfl : g = .char ')' := by simpa [List.getLast?_cons] using closing
      refine ⟨lead, some ⟨content, trail, trail_blank⟩, lead_blank, ?_⟩
      rw [whole]
      simp [Arguments.text]

/-- The name of an entry is that of its spelling. -/
theorem name?_eq_some_iff {e : Entry} {name : Text} :
    e.name? = some name ↔ ∃ s : Spelling, s.text = e ∧ s.name.text = name := by
  constructor
  · intro found
    unfold name? at found
    split at found
    · rename_i read_name rest read
      split at found
      · rename_i closed
        obtain rfl := Option.some.inj found
        obtain ⟨n, rfl⟩ := Qualified.Spelling.exists_of_readName read
        obtain ⟨space, arguments, space_blank, rfl⟩ := exists_of_isArguments closed
        refine ⟨⟨_, n, space, arguments,
          Text.isBlank_iff.mpr (Text.mem_takeWhile_eq_true e), space_blank⟩, ?_, rfl⟩
        rw [Spelling.text, Spelling.rest, Qualified.append_of_readName read,
          Text.takeWhile_append_trimStart]
      · contradiction
    · contradiction
  · rintro ⟨s, rfl, rfl⟩
    exact s.name?_text

/-- The parenthesis that ends the arguments is the last one of their text. -/
theorem Arguments.text_injective : Function.Injective text := by
  have backwards (a : Arguments) :
      a.text.reverse = a.trail.reverse ++ .char ')' :: (a.content.reverse ++ [.char '(']) := by
    simp [text]
  have blank (a : Arguments) : ∀ g ∈ a.trail.reverse, g.isBlank = true := by
    simpa using Text.isBlank_iff.mp a.trail_blank
  have cut (a : Arguments) :
      a.text.reverse.takeWhile Glyph.isBlank = a.trail.reverse ∧
      a.text.reverse.dropWhile Glyph.isBlank =
        .char ')' :: (a.content.reverse ++ [.char '(']) := by
    rw [backwards]
    exact ⟨Text.takeWhile_append_of_head? (blank a) (by simp; rfl),
      Text.dropWhile_append_of_head? (blank a) (by simp; rfl)⟩
  intro a b same
  have trail := (cut a).1
  have content := (cut a).2
  rw [same, (cut b).1] at trail
  rw [same, (cut b).2] at content
  refine Arguments.ext ?_ ?_
  · simpa using content.symm
  · simpa using trail.symm

/-- An entry is spelled in one way only. -/
theorem Spelling.text_injective : Function.Injective text := by
  intro s other same
  have lead (s : Spelling) : s.text.takeWhile Glyph.isBlank = s.lead :=
    Text.takeWhile_append_of_head? (Text.isBlank_iff.mp s.lead_blank)
      (s.name.head?_text_append_isBlank s.rest)
  have space (s : Spelling) : s.rest.takeWhile Glyph.isBlank = s.space :=
    Text.takeWhile_append_of_head? (Text.isBlank_iff.mp s.space_blank)
      (head?_arguments (by decide) s.arguments)
  have behind (s : Spelling) :
      Qualified.readName s.text.trimStart = some (s.name.text, s.rest) := by
    rw [trimStart_text, s.name.readName_text_append s.stops_rest]
  have leads := lead s
  have parts := behind s
  rw [same, lead] at leads
  rw [same, behind] at parts
  obtain ⟨names, rests⟩ := Prod.mk.inj (Option.some.inj parts)
  have spaces := space s
  rw [← rests, space] at spaces
  rw [rest, rest, spaces, List.append_cancel_left_eq] at rests
  refine Spelling.ext leads.symm (Qualified.Spelling.text_injective names.symm) spaces.symm ?_
  cases first : s.arguments with
  | none =>
      cases second : other.arguments with
      | none => rfl
      | some b =>
          rw [first, second] at rests
          contradiction
  | some a =>
      cases second : other.arguments with
      | none =>
          rw [first, second] at rests
          contradiction
      | some b =>
          rw [first, second] at rests
          rw [Arguments.text_injective rests]

/-- Blanks behind an entry belong to its spelling and leave its name alone. -/
theorem Spelling.exists_append_of_isBlank (s : Spelling) {trail : Text}
    (blank : trail.isBlank = true) :
    ∃ other : Spelling, other.text = s.text ++ trail ∧ other.name = s.name := by
  cases arguments : s.arguments with
  | none =>
      have longer : Text.isBlank (s.space ++ trail) = true := by
        rw [Text.isBlank_append, s.space_blank, blank]
        rfl
      refine ⟨{ s with space := s.space ++ trail, space_blank := longer }, ?_, rfl⟩
      simp [text, rest, arguments]
  | some a =>
      have longer : Text.isBlank (a.trail ++ trail) = true := by
        rw [Text.isBlank_append, a.trail_blank, blank]
        rfl
      refine ⟨{ s with arguments := some ⟨a.content, a.trail ++ trail, longer⟩ }, ?_, rfl⟩
      simp [text, rest, arguments, Arguments.text]

theorem name?_append_of_isBlank {trail : Text} (blank : trail.isBlank = true) (e : Entry) :
    name? (e ++ trail) = e.name? := by
  cases found : e.name? with
  | some name =>
      obtain ⟨s, rfl, rfl⟩ := name?_eq_some_iff.mp found
      obtain ⟨other, text, same⟩ := s.exists_append_of_isBlank blank
      rw [← text, other.name?_text, same]
  | none =>
      rw [Option.eq_none_iff_forall_ne_some]
      intro name again
      obtain ⟨other, unnamed, -⟩ :=
        name?_of_respaced (Text.Respaced.append_of_isBlank blank e) again
      rw [found] at unnamed
      contradiction

/-- Trimming an entry leaves its name as it is written. -/
@[simp]
theorem name?_trim (e : Entry) : name? (Text.trim e) = e.name? := by
  obtain ⟨lead, trail, lead_blank, trail_blank, whole⟩ := Text.exists_eq_append_trim e
  conv_rhs => rw [whole]
  rw [name?_append_left_of_isBlank lead_blank, name?_append_of_isBlank trail_blank]

theorem applies_iff {e : Entry} {wanted : Text} :
    e.applies wanted = true ↔
      ∃ s : Spelling, s.text = e ∧ shortName s.name.text = shortName wanted := by
  unfold applies
  split
  · rename_i written found
    obtain ⟨s, rfl, rfl⟩ := name?_eq_some_iff.mp found
    rw [beq_iff_eq]
    constructor
    · exact fun same => ⟨s, rfl, same⟩
    · rintro ⟨other, written, same⟩
      rwa [← Spelling.text_injective written]
  · rename_i unnamed
    constructor
    · exact fun applied => absurd applied Bool.false_ne_true
    · rintro ⟨s, rfl, -⟩
      rw [s.name?_text] at unnamed
      contradiction

/-- An entry applies an attribute exactly if it is spelled with a name whose last identifier has
the stem of the last segment of the attribute. No entry has two spellings, and its name is the
one that it is spelled with. -/
theorem applies_iff_last_segment (name : AttributeName) (e : Entry) :
    (∃ last, (∀ other, Short.IsLastSegment name.text other ↔ other = last) ∧
      (e.applies name.text = true ↔
        ∃ s : Spelling, s.text = e ∧
          ∃ stem, Short.IsStem s.name.last stem ∧ Short.IsStem last stem)) ∧
    Function.Injective Spelling.text ∧
    ∀ written, e.name? = some written ↔ ∃ s : Spelling, s.text = e ∧ s.name.text = written := by
  obtain ⟨n, spelled, shows⟩ := name.exists_spelling
  refine ⟨⟨n.last, ?_, ?_⟩, Spelling.text_injective, fun written => name?_eq_some_iff⟩
  · intro other
    rw [← spelled]
    exact n.isLastSegment_iff (spelled ▸ shows)
  · simp only [applies_iff, ← spelled, Qualified.Spelling.shortName_text, Short.isStem_iff,
      exists_eq_left]

/-- The mark, blanks around dots and one suffix make no difference; a second suffix does. -/
example :
    let wanted := Text.ofString "Ns.FooAttribute"
    applies wanted (Text.ofString " global::Other . Foo (1) ") = true ∧
      applies wanted (Text.ofString "FooAttributeAttribute") = false := by
  decide +kernel

end Entry

end AttributeLists
