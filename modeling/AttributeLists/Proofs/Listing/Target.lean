/-
# Targets

`Bracketed.Targets` says when a body starts with a target, and the reader of targets
finds exactly that. What follows the entry with the target does not matter, so a
target belongs to the first entry of a body; and a target that is printed in front of
entries is read again.
-/

import AttributeLists.Listing.Bracketed
import AttributeLists.Proofs.Listing.Commas
import AttributeLists.Proofs.Name.Identifier
import AttributeLists.Proofs.Text.Trim

namespace AttributeLists

open Qualified

namespace Bracketed

/-- The body starts with the target and its colon, and `after` follows the colon. -/
structure Targets (body lead target space after : Text) : Prop where
  whole : body = lead ++ (target ++ (space ++ .char ':' :: after))
  lead_blank : lead.isBlank = true
  identifier : IsIdentifier target
  space_blank : space.isBlank = true
  single : ∀ g ∈ after.head?, g ≠ .char ':'

/-- The body is cut behind the colon. -/
theorem Targets.body_eq {body lead target space after : Text}
    (targets : Targets body lead target space after) :
    body = lead ++ (target ++ (space ++ [.char ':'])) ++ after := by
  simp [targets.whole]

theorem Targets.not_mem_front {body lead target space after : Text}
    (targets : Targets body lead target space after) {c : Char}
    (shows : (Glyph.char c).isBlank = false)
    (unstarting : (Glyph.char c).startsIdentifier = false)
    (unword : (Glyph.char c).isWord = false) (uncolon : c ≠ ':') :
    .char c ∉ lead ++ (target ++ (space ++ [.char ':'])) := by
  simp only [List.mem_append, List.mem_singleton, Glyph.char.injEq, not_or]
  exact ⟨Text.char_not_mem_of_isBlank targets.lead_blank shows,
    fun inside => targets.identifier.ne_char unstarting unword _ inside rfl,
    Text.char_not_mem_of_isBlank targets.space_blank shows, uncolon⟩

theorem targets_of_readTarget {body target after : Text}
    (read : readTarget body = some (target, after)) :
    ∃ lead space, Targets body lead target space after := by
  unfold readTarget at read
  split at read
  · contradiction
  · rename_i identifier rest found
    obtain ⟨whole, is_identifier, -⟩ := readIdentifier_eq_some_iff.mp found
    have body_eq := Text.takeWhile_append_trimStart body
    have rest_eq := Text.takeWhile_append_trimStart rest
    split at read
    · contradiction
    · rename_i entries single colon
      obtain ⟨rfl, rfl⟩ : identifier = target ∧ entries = after := by simpa using read
      refine ⟨body.takeWhile Glyph.isBlank, rest.takeWhile Glyph.isBlank, ?_,
        Text.isBlank_iff.mpr (Text.mem_takeWhile_eq_true body), is_identifier,
        Text.isBlank_iff.mpr (Text.mem_takeWhile_eq_true rest), ?_⟩
      · rw [← colon, rest_eq, ← whole, body_eq]
      · rintro g first rfl
        cases entries with
        | nil => contradiction
        | cons other entries =>
            obtain rfl : other = .char ':' := by simpa using first
            exact single _ rfl
    · contradiction

theorem Targets.readTarget_eq {body lead target space after : Text}
    (targets : Targets body lead target space after) :
    readTarget body = some (target, after) := by
  rcases targets with ⟨rfl, lead_blank, identifier, space_blank, single⟩
  have starts := identifier.head?_isBlank (space ++ .char ':' :: after)
  have colon_unword : ∀ g ∈ (Glyph.char ':' :: after).head?, g.isWord = false := by
    intro g first
    obtain rfl : .char ':' = g := by simpa using first
    decide
  have stops := Text.head?_append_isWord space_blank colon_unword
  have read := readIdentifier_eq_some_iff.mpr ⟨rfl, identifier, stops⟩
  have colon : Text.trimStart (space ++ .char ':' :: after) = .char ':' :: after := by
    rw [Text.trimStart_append_of_isBlank space_blank]
    rfl
  unfold readTarget
  rw [Text.trimStart_append_of_isBlank lead_blank, Text.trimStart_eq_self starts, read]
  dsimp only
  rw [colon]
  split
  · rename_i double
    obtain ⟨-, rfl⟩ := List.cons.inj double
    apply absurd rfl
    exact single _ rfl
  · rename_i same
    obtain ⟨-, rfl⟩ := List.cons.inj same
    rfl
  · rename_i other
    exact absurd rfl (other after)

theorem readTarget_eq_some_iff {body target after : Text} :
    readTarget body = some (target, after) ↔
      ∃ lead space, Targets body lead target space after := by
  constructor
  · exact targets_of_readTarget
  · rintro ⟨lead, space, targets⟩
    exact targets.readTarget_eq

/-- The entries of a list are its whole body or stand behind its target. -/
theorem target?_cases (b : Bracketed) :
    b.target? = none ∧ b.listing = b.body ∨
      ∃ lead target space, b.target? = some target ∧
        Targets b.body lead target space b.listing := by
  unfold target? listing
  split
  · rename_i target after read
    obtain ⟨lead, space, targets⟩ := readTarget_eq_some_iff.mp read
    exact .inr ⟨lead, target, space, by rw [read]; rfl, targets⟩
  · rename_i unread
    exact .inl ⟨by rw [unread]; rfl, rfl⟩

/-- The comma after an entry and what follows it have no part in the target. -/
theorem readTarget_append_comma (e rest : Text) :
    readTarget (e ++ .char ',' :: rest) =
      (readTarget e).map fun (target, after) => (target, after ++ .char ',' :: rest) := by
  cases found : readTarget e with
  | some read =>
      rcases read with ⟨target, after⟩
      obtain ⟨lead, space, targets⟩ := readTarget_eq_some_iff.mp found
      refine readTarget_eq_some_iff.mpr ⟨lead, space, ?_, targets.lead_blank, targets.identifier,
        targets.space_blank, ?_⟩
      · simp [targets.whole]
      · have single := targets.single
        cases after with
        | nil => simp
        | cons g after => simpa using single
  | none =>
      rw [Option.map_none, Option.eq_none_iff_forall_ne_some]
      rintro ⟨target, after⟩ read
      obtain ⟨lead, space, targets⟩ := readTarget_eq_some_iff.mp read
      have unmarked := targets.not_mem_front (c := ',') rfl rfl (by decide) (by decide)
      obtain ⟨more, rfl, rfl⟩ := Text.exists_append_of_not_mem unmarked
        (by simpa using targets.whole.symm)
      have again : readTarget (lead ++ (target ++ (space ++ [.char ':'])) ++ more) =
          some (target, more) := by
        refine readTarget_eq_some_iff.mpr ⟨lead, space, by simp, targets.lead_blank,
          targets.identifier, targets.space_blank, ?_⟩
        have single := targets.single
        cases more with
        | nil => simp
        | cons g more => simpa using single
      rw [again] at found
      contradiction

/-- The target of joined entries is that of the first. -/
theorem readTarget_intercalate (first : Text) (more : List Text) :
    readTarget (List.intercalate (Text.ofString ", ") (first :: more)) =
      (readTarget first).map fun (target, after) =>
        (target, List.intercalate (Text.ofString ", ") (after :: more)) := by
  cases more with
  | nil => simp
  | cons second more =>
      have joined (e : Text) : List.intercalate (Text.ofString ", ") (e :: second :: more) =
          e ++ .char ',' :: (.char ' ' ::
            List.intercalate (Text.ofString ", ") (second :: more)) := by
        rw [List.intercalate_cons_cons]
        simp [Text.ofString]
      simp only [joined, readTarget_append_comma]

/-- A target that is written in front of entries is read again. -/
theorem readTarget_targetText {target : Text} (identifier : IsIdentifier target) (rest : Text) :
    readTarget (targetText (some target) ++ rest) = some (target, .char ' ' :: rest) := by
  refine readTarget_eq_some_iff.mpr ⟨[], [], ?_, rfl, identifier, rfl, ?_⟩
  · simp [targetText, Text.ofString]
  · simp

/-- What follows the target of a whole entry is whole. -/
theorem whole_of_readTarget {e target after : Text} (read : readTarget e = some (target, after))
    (whole : Commas.Whole .start e) : Commas.Whole .start after := by
  obtain ⟨lead, space, targets⟩ := readTarget_eq_some_iff.mp read
  have plain : ∀ c ∈ Commas.marks, .char c ∉ lead ++ (target ++ (space ++ [.char ':'])) := by
    intro c mark
    have classes : (Glyph.char c).isBlank = false ∧ (Glyph.char c).startsIdentifier = false ∧
        (Glyph.char c).isWord = false ∧ c ≠ ':' := by
      simp only [Commas.marks, List.mem_cons, List.not_mem_nil, or_false] at mark
      rcases mark with rfl | rfl | rfl | rfl | rfl | rfl | rfl <;> decide
    rcases classes with ⟨shows, unstarting, unword, uncolon⟩
    exact targets.not_mem_front shows unstarting unword uncolon
  rw [← Commas.whole_start_append plain]
  simpa [targets.whole] using whole

end Bracketed

end AttributeLists
