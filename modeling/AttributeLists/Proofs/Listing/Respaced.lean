/-
# Reading lists in respaced texts

Names, targets, entries and their division take blanks as they come: none of the
readers counts them, or asks which blank stands somewhere. So a reader that finds
something in one of two respaced texts finds it in the other one, and what follows
it is respaced again. In particular a list applies an attribute in both or in
neither.
-/

import Mathlib.Data.List.Forall2
import AttributeLists.Proofs.Listing.Target
import AttributeLists.Proofs.Text.Respaced

namespace AttributeLists

open Text (Respaced)

namespace Qualified

variable {t u : Text} (same : Respaced t u)
include same

theorem readIdentifier_of_respaced {identifier rest : Text}
    (read : readIdentifier t = some (identifier, rest)) :
    ∃ other, readIdentifier u = some (identifier, other) ∧ Respaced rest other := by
  obtain ⟨rfl, is_identifier, outside⟩ := readIdentifier_eq_some_iff.mp read
  obtain ⟨other, rfl, rests⟩ := same.exists_of_append is_identifier.isBlank_eq_false
  have other_outside := rests.head?_eq_false (fun _ => Glyph.isWord_of_isBlank) outside
  exact ⟨other, readIdentifier_eq_some_iff.mpr ⟨rfl, is_identifier, other_outside⟩, rests⟩

theorem readSegment_of_respaced {segment rest : Text}
    (read : readSegment t = some (segment, rest)) :
    ∃ other_segment other, readSegment u = some (other_segment, other) ∧
      Respaced rest other := by
  unfold readSegment at read
  split at read
  · rename_i dotted front
    simp only [Option.map_eq_some_iff, Prod.mk.injEq, Prod.exists] at read
    rcases read with ⟨identifier, more, found, -, rfl⟩
    have trimmed := same.trimStart
    rw [front] at trimmed
    obtain ⟨other_dotted, other_front, dotted_same⟩ := trimmed.exists_of_cons rfl
    obtain ⟨other, other_found, rests⟩ := readIdentifier_of_respaced dotted_same.trimStart found
    refine ⟨u.takeWhile Glyph.isBlank ++
      .char '.' :: (other_dotted.takeWhile Glyph.isBlank ++ identifier), other, ?_, rests⟩
    simp only [readSegment, other_front, other_found, Option.map_some]
  · contradiction

theorem readSegments_of_respaced : Respaced (readSegments t).2 (readSegments u).2 := by
  fun_induction readSegments t generalizing u with
  | case1 t stop =>
      have other_stop : readSegment u = none := by
        rw [Option.eq_none_iff_forall_ne_some]
        rintro ⟨segment, rest⟩ found
        obtain ⟨segment, rest, read, -⟩ := readSegment_of_respaced same.symm found
        rw [stop] at read
        contradiction
      rwa [readSegments_of_none other_stop]
  | case2 t segment rest found segments after read ih =>
      obtain ⟨other_segment, other, other_found, rests⟩ := readSegment_of_respaced same found
      have later := ih rests
      rw [read] at later
      rwa [readSegments_of_some other_found]

theorem readName_of_respaced {name rest : Text} (read : readName t = some (name, rest)) :
    ∃ other_name other, readName u = some (other_name, other) ∧ other_name.bare = name.bare ∧
      Respaced rest other := by
  obtain ⟨mark, unmarked, identifier, more, marked, found, rfl, rfl⟩ := readName_eq_some_iff.mp read
  have mark_shows : ∀ g ∈ globalMark, g.isBlank = false := by decide
  have other_marked : ∃ other_unmarked,
      (mark = globalMark ∧ u = globalMark ++ other_unmarked ∨
        mark = [] ∧ u = other_unmarked ∧ ¬ globalMark <+: u) ∧
      Respaced unmarked other_unmarked := by
    rcases marked with ⟨rfl, rfl⟩ | ⟨rfl, rfl, unmarked_front⟩
    · obtain ⟨other_unmarked, rfl, rests⟩ := same.exists_of_append mark_shows
      exact ⟨other_unmarked, .inl ⟨rfl, rfl⟩, rests⟩
    · refine ⟨u, .inr ⟨rfl, rfl, ?_⟩, same⟩
      rintro ⟨after, rfl⟩
      obtain ⟨rest, rfl, -⟩ := same.symm.exists_of_append mark_shows
      exact unmarked_front ⟨rest, rfl⟩
  rcases other_marked with ⟨other_unmarked, other_marked, unmarked_same⟩
  obtain ⟨other, other_found, rests⟩ := readIdentifier_of_respaced unmarked_same found
  have other_read := readName_eq_some_iff.mpr
    ⟨mark, other_unmarked, identifier, other, other_marked, other_found, rfl, rfl⟩
  have after_same := readSegments_of_respaced rests
  refine ⟨_, _, other_read, ?_, after_same⟩
  -- What follows the names shows the same in both texts, so the names do too.
  have bare_same := same.bare_eq
  rw [← append_of_readName read, ← append_of_readName other_read,
    Text.bare_append _ (readSegments more).2, Text.bare_append _ (readSegments other).2,
    after_same.bare_eq] at bare_same
  exact (List.append_cancel_right bare_same).symm

end Qualified

namespace Entry

theorem isArguments_eq (t : Text) :
    isArguments t = (t.bare.isEmpty ||
      t.bare.head? == some (.char '(') && t.bare.getLast? == some (.char ')')) := by
  have first := Text.head?_bare (Text.head?_trim t)
  have last := Text.getLast?_bare (Text.getLast?_trimEnd t.trimStart)
  have empty : t.trim.isEmpty = t.bare.isEmpty := by
    rw [Text.isEmpty_trim, Bool.eq_iff_iff, List.isEmpty_iff, Text.bare_eq_nil_iff]
  rw [Text.bare_trim] at first
  have trimmed_bare := Text.bare_trim t
  rw [Text.trim] at trimmed_bare
  rw [trimmed_bare] at last
  simp only [isArguments, empty, first, last]
  rfl

variable {e f : Entry}

theorem name?_of_respaced (same : Respaced e f) {name : Text} (found : e.name? = some name) :
    ∃ other, f.name? = some other ∧ other.bare = name.bare := by
  unfold name? at found
  split at found
  · rename_i read_name rest read
    split at found
    · rename_i arguments
      obtain rfl := Option.some.inj found
      obtain ⟨other, other_rest, other_read, bare_same, rests⟩ :=
        Qualified.readName_of_respaced same.trimStart read
      have other_arguments : isArguments other_rest = true := by
        rwa [isArguments_eq, ← rests.bare_eq, ← isArguments_eq]
      exact ⟨other, by simp [name?, other_read, other_arguments], bare_same⟩
    · contradiction
  · contradiction

/-- Blanks do not decide whether an entry applies an attribute. -/
theorem applies_of_respaced (same : Respaced e f) {wanted : Text}
    (applied : e.applies wanted = true) : f.applies wanted = true := by
  unfold applies at applied
  split at applied
  · rename_i name found
    obtain ⟨other, other_found, bare_same⟩ := name?_of_respaced same found
    have short_same : shortName other = shortName name :=
      congrArg (fun bare => Short.withoutSuffix ((Short.segments bare).getLastD [])) bare_same
    simpa only [applies, other_found, short_same] using applied
  · contradiction

theorem applies_congr (same : Respaced e f) (wanted : Text) :
    e.applies wanted = f.applies wanted := by
  rw [Bool.eq_iff_iff]
  exact ⟨applies_of_respaced same, applies_of_respaced same.symm⟩

@[simp]
theorem name?_trimStart (e : Entry) : name? (Text.trimStart e) = e.name? := by
  have twice : Text.trimStart (Text.trimStart e) = Text.trimStart e :=
    Text.trimStart_eq_self (Text.head?_trimStart e)
  simp only [name?, twice]

theorem name?_append_left_of_isBlank {lead : Text} (blank : lead.isBlank = true) (e : Entry) :
    name? (lead ++ e) = e.name? := by
  rw [← name?_trimStart, Text.trimStart_append_of_isBlank blank, name?_trimStart]

@[simp]
theorem applies_trimStart (wanted : Text) (e : Entry) :
    applies wanted (Text.trimStart e) = e.applies wanted := by
  simp only [applies, name?_trimStart]

theorem applies_cons_of_isBlank {g : Glyph} (blank : g.isBlank = true) (wanted : Text)
    (e : Entry) : applies wanted (g :: e) = e.applies wanted := by
  rw [← applies_trimStart, ← applies_trimStart wanted e]
  simp [Text.trimStart, blank]

@[simp]
theorem applies_trim (wanted : Text) (e : Entry) :
    applies wanted (Text.trim e) = e.applies wanted := by
  obtain ⟨lead, trail, lead_blank, trail_blank, whole⟩ := Text.exists_eq_append_trim e
  have trailing := Text.Respaced.append_of_isBlank trail_blank (Text.trim e)
  rw [← applies_congr trailing, ← applies_trimStart, ← applies_trimStart wanted e]
  conv_rhs => rw [whole, Text.trimStart_append_of_isBlank lead_blank]

end Entry

namespace Bracketed

variable {t u : Text}

theorem readTarget_of_respaced (same : Respaced t u) {target after : Text}
    (read : readTarget t = some (target, after)) :
    ∃ other, readTarget u = some (target, other) ∧ Respaced after other := by
  obtain ⟨lead, space, rfl, lead_blank, identifier, space_blank, single⟩ :=
    readTarget_eq_some_iff.mp read
  have front := same.trimStart
  rw [Text.trimStart_append_of_isBlank lead_blank,
    Text.trimStart_eq_self (identifier.head?_isBlank _)] at front
  obtain ⟨spaced, other_front, spaced_same⟩ :=
    front.exists_of_append identifier.isBlank_eq_false
  have colon := spaced_same.trimStart
  rw [Text.trimStart_append_of_isBlank space_blank,
    Text.trimStart_eq_self (by simp; rfl)] at colon
  obtain ⟨other, other_colon, rests⟩ := colon.exists_of_cons rfl
  refine ⟨other, readTarget_eq_some_iff.mpr ⟨u.takeWhile Glyph.isBlank,
    spaced.takeWhile Glyph.isBlank, ?_, Text.isBlank_iff.mpr (Text.mem_takeWhile_eq_true u),
    identifier, Text.isBlank_iff.mpr (Text.mem_takeWhile_eq_true spaced), ?_⟩, rests⟩
  · rw [← other_colon, Text.takeWhile_append_trimStart, ← other_front,
      Text.takeWhile_append_trimStart]
  · have unmarked (g : Glyph) (blank : g.isBlank = true) : (g == .char ':') = false := by
      rw [beq_eq_false_iff_ne]
      exact Glyph.ne_of_isBlank blank rfl
    simpa using rests.head?_eq_false unmarked (by simpa using single)

end Bracketed

namespace Commas

theorem piecesFrom_of_respaced {t u : Text} (same : Respaced t u) {s : State}
    {pieces : List Text} (divided : piecesFrom s t = some pieces) :
    ∃ others, piecesFrom s u = some others ∧ List.Forall₂ Respaced pieces others := by
  induction same generalizing s pieces with
  | @blank t u first second =>
      rw [piecesFrom_of_isBlank first] at divided
      rw [piecesFrom_of_isBlank second]
      split at divided
      · rename_i closed
        obtain rfl := Option.some.inj divided
        rw [if_pos closed]
        exact ⟨[u], rfl, .cons (.blank first second) .nil⟩
      · contradiction
  | @glyph g t u rest ih =>
      cases piecesFrom_eq_some_iff.mp divided with
      | comma closed later =>
          obtain ⟨others, other_divided, pairs⟩ := ih (piecesFrom_eq_some_iff.mpr later)
          rw [piecesFrom_cons_of_comma closed, splitEntries, other_divided]
          exact ⟨[] :: others, rfl, .cons (.refl []) pairs⟩
      | glyph undivided stepped later =>
          obtain ⟨others, other_divided, pairs⟩ := ih (piecesFrom_eq_some_iff.mpr later)
          rw [piecesFrom_cons_of_step undivided stepped, other_divided]
          cases pairs with
          | cons first more => exact ⟨_, rfl, .cons (first.glyph g) more⟩
  | @run a b t u first first_blank second second_blank rest ih =>
      rw [piecesFrom_append_of_isBlank first first_blank] at divided
      rw [piecesFrom_append_of_isBlank second second_blank]
      obtain ⟨more, later, rfl⟩ := Option.map_eq_some_iff.mp divided
      obtain ⟨others, other_divided, pairs⟩ := ih later
      refine ⟨b.foldr extendFirst others, by rw [other_divided]; rfl, ?_⟩
      cases pairs with
      | nil => exact absurd rfl (piecesFrom_eq_some_iff.mp later).ne_nil
      | cons piece more =>
          rw [foldr_extendFirst, foldr_extendFirst]
          exact .cons (.run first first_blank second second_blank piece) more

end Commas

namespace Bracketed

/-- Some entry of the list applies the attribute. -/
def Applies (wanted : Text) (b : Bracketed) : Prop :=
  ∃ entries, b.entries? = some entries ∧ ∃ e ∈ entries, Entry.applies wanted e = true

variable {b c : Bracketed}

theorem listing_of_respaced (same : Respaced b.body c.body) : Respaced b.listing c.listing := by
  unfold listing
  cases read : readTarget b.body with
  | some taken =>
      rcases taken with ⟨target, after⟩
      obtain ⟨other, other_read, rests⟩ := readTarget_of_respaced same read
      rw [other_read]
      exact rests
  | none =>
      cases other_read : readTarget c.body with
      | some taken =>
          rcases taken with ⟨target, after⟩
          obtain ⟨other, found, -⟩ := readTarget_of_respaced same.symm other_read
          rw [read] at found
          contradiction
      | none => exact same

/-- Blanks in its body do not decide whether a list applies an attribute. -/
theorem applies_of_respaced {wanted : Text} (same : Respaced b.body c.body)
    (applied : b.Applies wanted) : c.Applies wanted := by
  rcases applied with ⟨entries, divided, e, inside, e_applies⟩
  obtain ⟨others, other_divided, pairs⟩ :=
    Commas.piecesFrom_of_respaced (listing_of_respaced same) divided
  obtain ⟨i, within, rfl⟩ := List.getElem_of_mem inside
  have other_within : i < others.length := pairs.length_eq ▸ within
  exact ⟨others, other_divided, others[i], List.getElem_mem other_within,
    Entry.applies_of_respaced (pairs.get within other_within) e_applies⟩

theorem applies_congr (same : Respaced b.body c.body) (wanted : Text) :
    b.Applies wanted ↔ c.Applies wanted :=
  ⟨applies_of_respaced same, applies_of_respaced same.symm⟩

end Bracketed

end AttributeLists
