/-
# Pruning a text once more

Pruning can leave work for another run. A list that stays may get an entry at its
front that reads as a target, and what follows that target is then an entry of its
own. And where a list went away, a scan can find a list that was not one before: in a
comment that stays without its list, or because two slashes come together.

There is no other way. A list that is found where one stayed applies the attribute
exactly if it got such a target, and so a second run has nothing to do if no list
resurfaces in one of these two ways. Collapsing has no say in it.
-/

import AttributeLists.Proofs.Listing.Division
import AttributeLists.Proofs.Listing.Renewed
import AttributeLists.Proofs.Prune.Collapsed

namespace AttributeLists

namespace Bracketed

theorem removed_prune_eq_zero_iff {wanted : Text} {b : Bracketed} :
    (b.prune wanted).removed = 0 ↔ ¬ b.Applies wanted := by
  cases divided : b.entries? with
  | none => simp [prune, Applies, divided]
  | some entries =>
      by_cases applied : ∃ e ∈ entries, Entry.applies wanted e = true
      · have counted : entries.countP (Entry.applies wanted) ≠ 0 := by
          rw [← Nat.pos_iff_ne_zero, List.countP_pos_iff]
          exact applied
        simp only [prune_of_applied divided applied, counted, false_iff, not_not]
        exact ⟨entries, divided, applied⟩
      · have kept : b.prune wanted = ⟨b.source, 0⟩ :=
          prune_of_unapplied divided (by simpa using applied)
        simp only [kept, true_iff]
        rintro ⟨others, other_divided, other_applied⟩
        obtain rfl := Option.some.inj (divided.symm.trans other_divided)
        exact applied other_applied

/-- What is left of the list is still a list. -/
def stays (wanted : Text) (b : Bracketed) : Bool :=
  (b.prune wanted).text.head? == some (.char '[')

/-- The list had no target, and the first entry that it keeps reads as one whose rest
applies the attribute. -/
def Promotes (wanted : Text) (b : Bracketed) : Prop :=
  b.target? = none ∧ b.Applies wanted ∧
    ∃ entries first more target after, b.entries? = some entries ∧
      remaining wanted entries = first :: more ∧ readTarget first = some (target, after) ∧
      Entry.applies wanted after = true

theorem applies_of_mem_remaining {wanted : Text} {entries : List Entry} :
    ∀ e ∈ remaining wanted entries, Entry.applies wanted e = false := by
  intro e remains
  obtain ⟨original, -, unapplied, rfl⟩ := exists_of_mem_remaining remains
  rwa [Entry.applies_trim]

theorem applies_renewed_iff {wanted : Text} {b : Bracketed} {entries : List Entry}
    {first : Text} {more : List Text} (divided : b.entries? = some entries)
    (kept : remaining wanted entries = first :: more) :
    (b.renewed (first :: more)).Applies wanted ↔
      b.target? = none ∧ ∃ target after, readTarget first = some (target, after) ∧
        Entry.applies wanted after = true := by
  have whole := @whole_of_mem_remaining wanted b entries divided
  have unapplied := @applies_of_mem_remaining wanted entries
  rw [kept] at whole unapplied
  have spaced (e : Text) : Entry.applies wanted (.char ' ' :: e) = Entry.applies wanted e :=
    Entry.applies_cons_of_isBlank rfl wanted e
  have applies_iff : (b.renewed (first :: more)).Applies wanted ↔
      Entry.applies wanted (refound b.target? first).2 = true := by
    have others : ¬ ∃ e ∈ more.map (.char ' ' :: ·), Entry.applies wanted e = true := by
      rintro ⟨e, inside, e_applies⟩
      obtain ⟨original, original_inside, rfl⟩ := List.mem_map.mp inside
      rw [spaced, unapplied original (List.mem_cons_of_mem first original_inside)] at e_applies
      contradiction
    simp only [Applies, entries?_renewed whole, Option.some.injEq, exists_eq_left',
      List.mem_cons, exists_eq_or_imp, others, or_false]
  have first_unapplied := unapplied first List.mem_cons_self
  rw [applies_iff]
  cases found : b.target? with
  | some target => simp [refound, spaced, first_unapplied]
  | none =>
      cases promoted : readTarget first with
      | none => simp [refound, promoted, first_unapplied]
      | some taken =>
          rcases taken with ⟨target, after⟩
          simp [refound, promoted]

/-- What is left of a list applies the attribute only if it promotes an entry. -/
theorem exists_source_of_stays {wanted : Text} {b : Bracketed} {rest : Text}
    (stands : b.StandsBefore rest) (stays : b.stays wanted = true) :
    ∃ c : Bracketed, (b.prune wanted).text = c.source ∧ .char ']' ∉ c.body ∧
      (c.Applies wanted ↔ b.Promotes wanted) := by
  by_cases applied : b.Applies wanted
  · obtain ⟨entries, divided, some_applied⟩ := applied
    cases kept : remaining wanted entries with
    | nil =>
        -- Only the comment would be left, and it starts with a slash.
        rw [Bracketed.stays, prune_of_applied divided some_applied, kept, withEntries] at stays
        rcases stands.comment with ⟨uncommented, -⟩ | ⟨⟨more, slashed⟩, -⟩
        · rw [uncommented] at stays
          contradiction
        · rw [← slashed] at stays
          contradiction
    | cons first more =>
        have lacking := @not_mem_of_mem_remaining wanted b rest entries stands divided
        rw [kept] at lacking
        refine ⟨b.renewed (first :: more), text_prune_of_remaining divided some_applied kept,
          (renewed_standsBefore_nil stands lacking).body, ?_⟩
        rw [applies_renewed_iff divided kept]
        constructor
        · intro promotes
          rcases promotes with ⟨untargeted, target, after, promoted, after_applies⟩
          exact ⟨untargeted, ⟨entries, divided, some_applied⟩, entries, first, more, target, after,
            divided, kept, promoted, after_applies⟩
        · rintro ⟨untargeted, -, others, other, rest, target, after, other_divided, other_kept,
            promoted, after_applies⟩
          obtain rfl := Option.some.inj (divided.symm.trans other_divided)
          obtain ⟨rfl, -⟩ := List.cons.inj (kept.symm.trans other_kept)
          exact ⟨untargeted, target, after, promoted, after_applies⟩
  · have kept := removed_prune_eq_zero_iff.mpr applied
    refine ⟨b, text_prune_of_removed_eq_zero kept, stands.body, ?_⟩
    exact ⟨fun applies => absurd applies applied, fun promotes => absurd promotes.2.1 applied⟩

/-- Lists that start alike have the same body. -/
theorem body_eq_of_source_append {b c : Bracketed} {rest other : Text}
    (closed : .char ']' ∉ b.body) (other_closed : .char ']' ∉ c.body)
    (same : b.source ++ rest = c.source ++ other) : b.body = c.body := by
  rw [source_append, source_append, List.cons.injEq] at same
  obtain ⟨more, longer, shared⟩ := Text.exists_append_of_not_mem closed same.2
  cases more with
  | nil => rw [longer, List.append_nil]
  | cons g more =>
      obtain ⟨rfl, -⟩ := List.cons.inj shared
      exact absurd (by simp [longer]) other_closed

end Bracketed

namespace Layout

/-- Pieces with the offset at which each one starts, when they are shown one after the
other, each after its gap, from an offset on. -/
def placedFrom {α : Type} (shown : α → Text) (offset : Nat) : List (Text × α) → List (Nat × α)
  | [] => []
  | (gap, piece) :: rest =>
      let start := offset + gap.length
      (start, piece) :: placedFrom shown (start + (shown piece).length) rest

/-- The lists of a layout that stay, with the offset at which each one starts in the new
text. -/
def standing (wanted : Text) (l : Layout) : List (Nat × Bracketed) :=
  (placedFrom (fun b => (b.prune wanted).text) 0 l.parts).filter fun part => part.2.stays wanted

/-- How a list that is found in the new text of a layout comes to apply the attribute. -/
inductive Resurfaces (wanted : Text) (l : Layout) : Nat × Bracketed → Prop
  /-- It is what is left of a list that promotes an entry. -/
  | promoted {start : Nat} {b : Bracketed} (found : Bracketed)
      (standing : (start, b) ∈ l.standing wanted) (promotes : b.Promotes wanted) :
      Resurfaces wanted l (start, found)
  /-- No list was left where it starts. -/
  | uncovered {start : Nat} {found : Bracketed}
      (unlisted : ∀ b, (start, b) ∉ l.standing wanted) (applies : found.Applies wanted) :
      Resurfaces wanted l (start, found)

theorem startsFrom_eq_placedFrom (offset : Nat) (parts : List (Text × Bracketed)) :
    startsFrom offset parts = placedFrom Bracketed.source offset parts := by
  induction parts generalizing offset with
  | nil => rfl
  | cons part parts ih =>
      rcases part with ⟨gap, b⟩
      rw [startsFrom, placedFrom, ih]

section Placed

variable {α : Type} {shown : α → Text} {offset : Nat} {parts : List (Text × α)}

/-- Each piece has a start, and only pieces do. -/
theorem exists_mem_placedFrom_iff {piece : α} :
    (∃ start, (start, piece) ∈ placedFrom shown offset parts) ↔ ∃ gap, (gap, piece) ∈ parts := by
  induction parts generalizing offset with
  | nil => simp [placedFrom]
  | cons part parts ih =>
      rcases part with ⟨gap, other⟩
      simp only [placedFrom, List.mem_cons, Prod.mk.injEq, exists_or, exists_eq_left, ih]

theorem exists_of_mem_placedFrom {start : Nat} {piece : α}
    (listed : (start, piece) ∈ placedFrom shown offset parts) :
    ∃ before after, start = offset + before.length ∧
      parts.flatMap (fun part => part.1 ++ shown part.2) = before ++ (shown piece ++ after) := by
  induction parts generalizing offset with
  | nil => contradiction
  | cons part parts ih =>
      rcases part with ⟨gap, other⟩
      rcases List.mem_cons.mp listed with first | later
      · obtain ⟨rfl, rfl⟩ := Prod.mk.inj first
        exact ⟨gap, _, rfl, by rw [List.flatMap_cons, List.append_assoc]⟩
      · obtain ⟨before, after, rfl, whole⟩ := ih later
        refine ⟨gap ++ (shown other ++ before), after, ?_, ?_⟩
        · simp only [List.length_append]
          omega
        · rw [List.flatMap_cons, whole]
          simp only [List.append_assoc]

end Placed

end Layout

namespace Text

theorem exists_of_mem_standing {wanted t : Text} {start : Nat} {b : Bracketed}
    (stood : (start, b) ∈ (Layout.ofText t).standing wanted) :
    ∃ left : Bracketed, .char ']' ∉ left.body ∧ (left.Applies wanted ↔ b.Promotes wanted) ∧
      ∃ before after, start = before.length ∧
        (Layout.ofText t).pruned wanted = before ++ (left.source ++ after) := by
  obtain ⟨placed, stays⟩ := List.mem_filter.mp stood
  obtain ⟨gap, inside⟩ := Layout.exists_mem_placedFrom_iff.mp ⟨start, placed⟩
  obtain ⟨rest, stands⟩ := (LaidOut.ofText t).exists_standsBefore inside
  obtain ⟨before, after, start_eq, whole⟩ := Layout.exists_of_mem_placedFrom placed
  obtain ⟨left, left_source, closed, applies_iff⟩ := Bracketed.exists_source_of_stays stands stays
  refine ⟨left, closed, applies_iff, before, after ++ (Layout.ofText t).tail, by omega, ?_⟩
  rw [← left_source, Layout.pruned, Layout.prune, Layout.pruneParts, Pruned.written,
    List.flatMap_map, whole]
  simp only [List.append_assoc]

/-- A list that is found where one stayed has the body that this one was left with. -/
theorem applies_iff_promotes {wanted t : Text} {start : Nat} {b c : Bracketed}
    (listed : (start, c) ∈ (Layout.ofText ((Layout.ofText t).pruned wanted)).starts)
    (stood : (start, b) ∈ (Layout.ofText t).standing wanted) :
    c.Applies wanted ↔ b.Promotes wanted := by
  obtain ⟨rest, begins, stands⟩ := (LaidOut.ofText _).standsAt_of_mem_starts _ listed
  obtain ⟨left, left_closed, applies_iff, before, after, rfl, laid⟩ :=
    exists_of_mem_standing stood
  rw [laid, List.drop_left] at begins
  have same_body := Bracketed.body_eq_of_source_append stands.body left_closed begins.symm
  rw [← applies_iff]
  exact Bracketed.applies_congr (same_body ▸ .refl c.body) wanted

/-- What applies the attribute in the new text is what resurfaces. -/
theorem applies_iff_resurfaces {wanted t : Text} {found : Nat × Bracketed}
    (listed : found ∈ (Layout.ofText ((Layout.ofText t).pruned wanted)).starts) :
    found.2.Applies wanted ↔ (Layout.ofText t).Resurfaces wanted found := by
  rcases found with ⟨start, c⟩
  constructor
  · intro applies
    by_cases stood : ∃ b, (start, b) ∈ (Layout.ofText t).standing wanted
    · obtain ⟨b, stood⟩ := stood
      exact .promoted c stood ((applies_iff_promotes listed stood).mp applies)
    · exact .uncovered (not_exists.mp stood) applies
  · intro resurfaces
    cases resurfaces with
    | promoted _ stood promotes => exact (applies_iff_promotes listed stood).mpr promotes
    | uncovered unlisted applies => exact applies

theorem prune_eq_self_iff (name : AttributeName) (collapse : Bool) (t : Text) :
    t.prune name collapse = ⟨t, 0⟩ ↔ ¬ Applies name.text t := by
  have removed : (t.prune name collapse).removed = 0 ↔ ¬ Applies name.text t := by
    rw [prune_eq]
    simp only [Pruned.total, Layout.prune, Layout.pruneParts, List.map_map, Applies,
      List.sum_eq_zero_iff_forall_eq_nat, List.forall_mem_map, Function.comp_apply,
      Bracketed.removed_prune_eq_zero_iff, not_exists, not_and]
  rw [← removed]
  constructor
  · intro same
    rw [same]
  · exact prune_of_removed_eq_zero

/-- A second run finds nothing to do exactly if no list resurfaces, and it does not
matter whether blank lines are collapsed. -/
theorem prune_again_iff (name : AttributeName) (collapse : Bool) (t : Text) :
    let once := t.prune name collapse
    once.text.prune name collapse = ⟨once.text, 0⟩ ↔
      ∀ found ∈ (Layout.ofText (t.prune name false).text).starts,
        ¬ (Layout.ofText t).Resurfaces name.text found := by
  intro once
  have laid : (t.prune name false).text = (Layout.ofText t).pruned name.text := by
    rw [prune_eq]
    rfl
  have applies_iff : Applies name.text once.text ↔
      Applies name.text ((Layout.ofText t).pruned name.text) := by
    cases collapse with
    | false => rw [← laid]
    | true =>
        have collapsed := applies_collapse name.text ((Layout.ofText t).pruned name.text)
          (Pruned.removals 0 ((Layout.ofText t).prune name.text))
        rw [← collapsed]
        simp only [once, prune_eq, if_true]
  rw [prune_eq_self_iff, applies_iff, laid]
  constructor
  · rintro unapplied ⟨start, c⟩ listed resurfaces
    have applies := (applies_iff_resurfaces listed).mpr resurfaces
    rw [Layout.starts, Layout.startsFrom_eq_placedFrom] at listed
    obtain ⟨gap, inside⟩ := Layout.exists_mem_placedFrom_iff.mp ⟨start, listed⟩
    exact unapplied ⟨(gap, c), inside, applies⟩
  · rintro settled ⟨⟨gap, c⟩, inside, applies⟩
    obtain ⟨start, listed⟩ := Layout.exists_mem_placedFrom_iff.mpr ⟨gap, inside⟩
    rw [← Layout.startsFrom_eq_placedFrom 0] at listed
    exact settled _ listed ((applies_iff_resurfaces listed).mp applies)

/-- The entry that moves to the front loses its own front to a target. -/
theorem promoted_entry_taken_out_again :
    let name : AttributeName := ⟨ofString "T", isAttributeName_singleton rfl⟩
    let once (collapse : Bool) := (ofString "[T, field: T]").prune name collapse
    once false = ⟨ofString "[field: T]", 1⟩ ∧ (once false).text.prune name false = ⟨[], 1⟩ ∧
      once true = ⟨ofString "[field: T]", 1⟩ ∧ (once true).text.prune name true = ⟨[], 1⟩ := by
  decide +kernel

/-- A comment that stays behind is no longer passed over as part of a list. -/
example :
    let name : AttributeName := ⟨ofString "T", isAttributeName_singleton rfl⟩
    let once := (ofString "[T] // [T] x").prune name false
    once = ⟨ofString "// [T] x", 1⟩ ∧ once.text.prune name false = ⟨ofString "// x", 1⟩ := by
  decide +kernel

end Text

end AttributeLists
