/-
# Reading a list again that was written anew

A list that loses some of its entries is written anew from what remains, and another
scan reads three things in it again: where it ends, its target and its entries. The
first and the last are always found as they were written. The target is found again
if there is one, but a list without a target may get one: what remains of it can
start with an entry that reads as a target itself, because no other entry stands in
front of it any more. The list then loses the name of that target from its first
entry.
-/

import AttributeLists.Proofs.Listing.Joined
import AttributeLists.Proofs.Listing.Scan
import AttributeLists.Proofs.Listing.Target
import AttributeLists.Proofs.Prune.Outcome

namespace AttributeLists

open Commas

namespace Bracketed

/-- The list with other entries behind its target. -/
def renewed (b : Bracketed) (entries : List Text) : Bracketed :=
  { b with
    body := targetText b.target? ++ List.intercalate (Text.ofString ", ") entries }

/-- The target and the first entry that are read again where a list with this target
was written anew and its first entry was this one. -/
def refound (target? : Option Text) (first : Text) : Option Text × Entry :=
  match target? with
  | some target => (some target, .char ' ' :: first)
  | none =>
      match readTarget first with
      | some (target, after) => (some target, after)
      | none => (none, first)

theorem isIdentifier_of_target? {b : Bracketed} {target : Text}
    (found : b.target? = some target) : Qualified.IsIdentifier target := by
  simp only [target?, Option.map_eq_some_iff] at found
  rcases found with ⟨⟨_, after⟩, read, rfl⟩
  obtain ⟨lead, space, targets⟩ := readTarget_eq_some_iff.mp read
  exact targets.identifier

theorem readTarget_renewed (b : Bracketed) (first : Text) (more : List Text) :
    readTarget (b.renewed (first :: more)).body =
      match b.target? with
      | some target =>
          some (target, .char ' ' :: List.intercalate (Text.ofString ", ") (first :: more))
      | none => (readTarget first).map fun (target, after) =>
          (target, List.intercalate (Text.ofString ", ") (after :: more)) := by
  cases found : b.target? with
  | some target =>
      rw [renewed, found]
      exact readTarget_targetText (isIdentifier_of_target? found) _
  | none =>
      rw [renewed, found]
      exact readTarget_intercalate first more

theorem target?_renewed (b : Bracketed) (first : Text) (more : List Text) :
    (b.renewed (first :: more)).target? = (refound b.target? first).1 := by
  rw [target?, readTarget_renewed]
  cases b.target? with
  | some target => rfl
  | none => cases promoted : readTarget first <;> simp [refound, promoted]

theorem splitEntries_cons_of_isBlank {g : Glyph} (blank : g.isBlank = true) (t : Text) :
    splitEntries (g :: t) = (splitEntries t).map (extendFirst g) :=
  piecesFrom_cons_of_isBlank blank .start t

theorem entries?_renewed {b : Bracketed} {first : Text} {more : List Text}
    (whole : ∀ e ∈ first :: more, Whole .start e) :
    (b.renewed (first :: more)).entries? =
      some ((refound b.target? first).2 :: more.map (.char ' ' :: ·)) := by
  have read := readTarget_renewed b first more
  cases found : b.target? with
  | some target =>
      simp only [found] at read
      rw [entries?, listing, read]
      dsimp only
      rw [splitEntries_cons_of_isBlank rfl, splitEntries_intercalate whole]
      rfl
  | none =>
      simp only [found] at read
      cases promoted : readTarget first with
      | none =>
          simp only [promoted, Option.map_none] at read
          rw [entries?, listing, read]
          simp only [renewed, found, targetText, List.nil_append]
          rw [splitEntries_intercalate whole]
          simp [refound, promoted]
      | some taken =>
          rcases taken with ⟨target, after⟩
          simp only [promoted, Option.map_some] at read
          have after_whole : ∀ e ∈ after :: more, Whole .start e := by
            intro e inside
            rcases List.mem_cons.mp inside with rfl | later
            · apply whole_of_readTarget promoted
              exact whole first List.mem_cons_self
            · apply whole e
              exact List.mem_cons_of_mem _ later
          rw [entries?, listing, read]
          dsimp only
          rw [splitEntries_intercalate after_whole]
          simp [refound, promoted]

private theorem not_mem_intercalate {mark : Glyph} (unseparating : mark ∉ Text.ofString ", ")
    {entries : List Text} (lacking : ∀ e ∈ entries, mark ∉ e) :
    mark ∉ List.intercalate (Text.ofString ", ") entries := by
  refine Text.intercalate_induction (P := fun t => mark ∉ t) List.not_mem_nil ?_ unseparating
    lacking
  intro t u first second
  rw [List.mem_append, not_or]
  exact ⟨first, second⟩

theorem renewed_standsBefore_nil {b : Bracketed} {rest : Text} (stands : b.StandsBefore rest)
    {entries : List Text} (lacking : ∀ e ∈ entries, .char ']' ∉ e) :
    (b.renewed entries).StandsBefore [] where
  body := by
    have target_lacking : .char ']' ∉ targetText b.target? := by
      cases found : b.target? with
      | none => simp [targetText]
      | some target =>
          have unclosing := (isIdentifier_of_target? found).ne_char (c := ']') rfl (by decide)
          simp only [targetText, List.mem_append, not_or]
          exact ⟨fun inside => unclosing _ inside rfl, by decide⟩
    simp only [renewed, List.mem_append, not_or]
    exact ⟨target_lacking, not_mem_intercalate (by decide) lacking⟩
  space := stands.space
  space_ends := by
    intro g first
    apply stands.space_ends g
    cases comment : b.comment with
    | nil => simp [renewed, comment] at first
    | cons other comment => simpa [renewed, comment] using first
  comment := by
    rcases stands.comment with ⟨bare, -⟩ | ⟨start, inside, -⟩
    · exact .inl ⟨bare, by decide⟩
    · exact .inr ⟨start, inside, by simp⟩

theorem exists_of_mem_remaining {wanted : Text} {entries : List Entry} {e : Text}
    (remains : e ∈ remaining wanted entries) :
    ∃ original ∈ entries, original.applies wanted = false ∧ e = Text.trim original := by
  rw [remaining_eq, List.mem_map] at remains
  rcases remains with ⟨original, chosen, rfl⟩
  simp only [List.mem_filter, Bool.and_eq_true, Bool.not_eq_true'] at chosen
  exact ⟨original, chosen.1, chosen.2.1, rfl⟩

theorem listing_subset (b : Bracketed) : b.listing ⊆ b.body := by
  rcases target?_cases b with ⟨-, all⟩ | ⟨lead, target, space, -, targets⟩
  · rw [all]
    exact List.Subset.refl _
  · rw [targets.body_eq]
    exact List.subset_append_right _ _

theorem whole_of_mem_remaining {wanted : Text} {b : Bracketed} {entries : List Entry}
    (divided : b.entries? = some entries) : ∀ e ∈ remaining wanted entries, Whole .start e := by
  intro e remains
  obtain ⟨original, inside, -, rfl⟩ := exists_of_mem_remaining remains
  apply whole_start_trim.mpr
  exact whole_of_splitEntries divided original inside

theorem subset_of_mem_remaining {wanted : Text} {b : Bracketed} {entries : List Entry}
    (divided : b.entries? = some entries) : ∀ e ∈ remaining wanted entries, e ⊆ b.body := by
  intro e remains
  obtain ⟨original, inside, -, rfl⟩ := exists_of_mem_remaining remains
  intro g shown
  apply listing_subset b
  apply subset_of_piecesFrom divided original inside
  obtain ⟨lead, trail, -, -, whole⟩ := Text.exists_eq_append_trim original
  rw [whole]
  simp [shown]

theorem not_mem_of_mem_remaining {wanted : Text} {b : Bracketed} {rest : Text}
    {entries : List Entry} (stands : b.StandsBefore rest) (divided : b.entries? = some entries) :
    ∀ e ∈ remaining wanted entries, .char ']' ∉ e := by
  intro e remains closing
  apply stands.body
  exact subset_of_mem_remaining divided e remains closing

/-- A list on its own is all that a scan finds. -/
theorem ofText_source {b : Bracketed} (stands : b.StandsBefore []) :
    Layout.ofText b.source = ⟨[([], b)], []⟩ := by
  have laid : LaidOut ([] ++ (b.source ++ [])) (Layout.cons [] b ⟨[], []⟩) :=
    .list (by simp) stands (.tail (by simp))
  simpa [Layout.cons] using laid.eq_ofText.symm

theorem text_prune_of_remaining {wanted : Text} {b : Bracketed} {entries : List Entry}
    {first : Text} {more : List Text} (divided : b.entries? = some entries)
    (applied : ∃ e ∈ entries, e.applies wanted = true)
    (kept : remaining wanted entries = first :: more) :
    (b.prune wanted).text = (b.renewed (first :: more)).source := by
  rw [prune_of_applied divided applied, kept]
  rfl

/-- Pruning leaves a list as it is, leaves its comment only, or writes it anew with what
remains of its entries. -/
theorem prune_cases (wanted : Text) (b : Bracketed) :
    b.prune wanted = ⟨b.source, 0⟩ ∨
      ∃ entries, b.entries? = some entries ∧
        let removed := entries.countP (Entry.applies wanted)
        let kept := remaining wanted entries
        (b.prune wanted = ⟨b.comment, removed⟩ ∨
          kept ≠ [] ∧ b.prune wanted = ⟨(b.renewed kept).source, removed⟩) := by
  cases divided : b.entries? with
  | none =>
      left
      simp [prune, divided]
  | some entries =>
      by_cases applied : ∃ e ∈ entries, e.applies wanted = true
      · refine .inr ⟨entries, rfl, ?_⟩
        rw [prune_of_applied divided applied]
        cases remaining wanted entries with
        | nil => exact .inl rfl
        | cons first more => exact .inr ⟨List.cons_ne_nil first more, rfl⟩
      · left
        exact prune_of_unapplied divided (by simpa using applied)

/-- What remains of the entries are some of them, each perhaps shortened. -/
theorem sublistForall₂_remaining (wanted : Text) (entries : List Entry) :
    List.SublistForall₂ List.Sublist (remaining wanted entries) entries := by
  rw [remaining_eq]
  exact Text.sublistForall₂_map_trim _ entries

/-- A list that keeps some entry is found again with its spacing and its comment. It
has the same target and the same entries exactly if it had a target before or its
first entry does not read as one. -/
theorem found_again_iff (name : AttributeName) {t : Text} {part : Text × Bracketed}
    (listed : part ∈ (Layout.ofText t).parts) {entries : List Entry} {first : Text}
    {more : List Text} (divided : part.2.entries? = some entries)
    (applied : ∃ e ∈ entries, e.applies name.text = true)
    (kept : remaining name.text entries = first :: more) :
    ∃ again : Bracketed,
      Layout.ofText (part.2.prune name.text).text = ⟨[([], again)], []⟩ ∧
      again.space = part.2.space ∧ again.comment = part.2.comment ∧
      (again.target? = part.2.target? ∧
          again.entries?.map (List.map Text.trim) = some (first :: more) ↔
        part.2.target? ≠ none ∨ readTarget first = none) := by
  rcases part with ⟨gap, b⟩
  obtain ⟨rest, stands⟩ := (LaidOut.ofText t).exists_standsBefore listed
  have lacking := @not_mem_of_mem_remaining name.text b rest entries stands divided
  have whole := @whole_of_mem_remaining name.text b entries divided
  rw [kept] at lacking whole
  have trimmed : ∀ e ∈ first :: more, Text.trim e = e ∧ Text.trim (.char ' ' :: e) = e := by
    intro e inside
    obtain ⟨original, -, -, rfl⟩ := exists_of_mem_remaining (kept ▸ inside)
    have spaced := Text.trim_append_of_isBlank (show Text.isBlank [.char ' '] = true from rfl)
      (Text.trim original)
    rw [List.singleton_append] at spaced
    rw [spaced]
    exact ⟨Text.trim_trim original, Text.trim_trim original⟩
  have first_trimmed := trimmed first List.mem_cons_self
  have more_trimmed : (more.map (.char ' ' :: ·)).map Text.trim = more := by
    rw [List.map_map]
    conv_rhs => rw [← List.map_id more]
    apply List.map_congr_left
    intro e later
    exact (trimmed e (List.mem_cons_of_mem _ later)).2
  refine ⟨b.renewed (first :: more), ?_, rfl, rfl, ?_⟩
  · rw [text_prune_of_remaining divided applied kept]
    apply ofText_source
    exact renewed_standsBefore_nil stands lacking
  · rw [target?_renewed, entries?_renewed whole]
    simp only [Option.map_some, List.map_cons, more_trimmed, Option.some.injEq, List.cons.injEq,
      and_true]
    cases found : b.target? with
    | some target => simp [refound, first_trimmed.2]
    | none =>
        cases promoted : readTarget first with
        | none => simp [refound, promoted, first_trimmed.1]
        | some taken => simp [refound, promoted]

theorem found_again_behind_target :
    let b : Bracketed :=
      ⟨Text.ofString "field: A, T(1), get: B", Text.ofString " ", Text.ofString "// c"⟩
    ([], b) ∈ (Layout.ofText (Text.ofString "[field: A, T(1), get: B] // c")).parts ∧
      ∃ again : Bracketed,
        Layout.ofText (b.prune (Text.ofString "T")).text = ⟨[([], again)], []⟩ ∧
        again.space = b.space ∧ again.comment = b.comment ∧
        (again.target? = b.target? ∧
            again.entries?.map (List.map Text.trim) =
              some [Text.ofString "A", Text.ofString "get: B"] ↔
          b.target? ≠ none ∨ readTarget (Text.ofString "A") = none) := by
  intro b
  have listed :
      ([], b) ∈ (Layout.ofText (Text.ofString "[field: A, T(1), get: B] // c")).parts := by
    decide +kernel
  have divided : b.entries? =
      some [Text.ofString " A", Text.ofString " T(1)", Text.ofString " get: B"] := by
    decide +kernel
  exact ⟨listed, found_again_iff ⟨Text.ofString "T", by decide +kernel⟩ listed divided
    ⟨Text.ofString " T(1)", by decide, by decide +kernel⟩ (by decide +kernel)⟩

/-- Without the entry in front of it, an entry that reads as a target becomes one. -/
theorem promoted_entry_found_as_target :
    let b : Bracketed := ⟨Text.ofString "T, field: A", [], []⟩
    let again : Bracketed := ⟨Text.ofString "field: A", [], []⟩
    ([], b) ∈ (Layout.ofText (Text.ofString "[T, field: A]")).parts ∧
      (b.prune (Text.ofString "T")).removed = 1 ∧
      Layout.ofText (b.prune (Text.ofString "T")).text = ⟨[([], again)], []⟩ ∧
      b.target? = none ∧ again.target? = some (Text.ofString "field") ∧
      again.entries? = some [Text.ofString " A"] := by
  decide +kernel

end Bracketed

end AttributeLists
