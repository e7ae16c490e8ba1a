/-
# What pruning makes of a text

`Bracketed.Becomes` lists the four things that can happen to a bracketed list and
says of each when it happens. Together with `LaidOut` it describes pruning without
reference to a scan or a draft: gaps stay, each list becomes what it must, and the
order of everything is kept.

The description leaves no choice. There is one layout of a text and one outcome for
each of its lists, so `Text.prune_eq_outcomes` settles the new text.
-/

import Mathlib.Data.List.Forall2
import AttributeLists.Proofs.Listing.Scan
import AttributeLists.Proofs.Prune.Draft
import AttributeLists.Proofs.Text.Trim

namespace AttributeLists

namespace Bracketed

/-- What becomes of a list when an attribute is taken out of it. -/
inductive Becomes (wanted : Text) (b : Bracketed) : Pruned → Prop
  /-- The entries do not divide: the list stays. -/
  | undivided (unread : b.entries? = none) : Becomes wanted b ⟨b.source, 0⟩
  /-- No entry applies the attribute: the list stays. -/
  | untouched {entries : List Entry} (divided : b.entries? = some entries)
      (unapplied : ∀ e ∈ entries, e.applies wanted = false) : Becomes wanted b ⟨b.source, 0⟩
  /-- No other entry shows anything: only the comment stays. -/
  | emptied {entries : List Entry} (divided : b.entries? = some entries)
      (applied : ∃ e ∈ entries, e.applies wanted = true)
      (nothing : ∀ e ∈ entries, e.applies wanted = true ∨ Text.isBlank e = true) :
      Becomes wanted b ⟨b.comment, entries.countP (Entry.applies wanted)⟩
  /-- The other entries that show something stay, trimmed and in their order, behind the
  target and its colon if there is a target. -/
  | shortened {entries kept : List Entry} (divided : b.entries? = some entries)
      (applied : ∃ e ∈ entries, e.applies wanted = true)
      (others : kept = entries.filter fun e : Entry => !e.applies wanted && !Text.isBlank e)
      (something : kept ≠ []) :
      Becomes wanted b
        ⟨.char '[' ::
            (b.target?.elim [] (· ++ Text.ofString ": ") ++
              List.intercalate (Text.ofString ", ") (kept.map Text.trim)) ++
          .char ']' :: b.space ++ b.comment, entries.countP (Entry.applies wanted)⟩

theorem remaining_eq (wanted : Text) (entries : List Entry) :
    remaining wanted entries =
      (entries.filter fun e : Entry => !e.applies wanted && !Text.isBlank e).map Text.trim := by
  have shows : ((fun e : Text => !e.isEmpty) ∘ Text.trim) = fun e : Text => !e.isBlank := by
    funext e
    simp [Text.isEmpty_trim]
  rw [remaining, List.filter_map, shows, List.filter_filter]
  simp only [Bool.and_comm]

theorem remaining_eq_nil_iff {wanted : Text} {entries : List Entry} :
    remaining wanted entries = [] ↔
      ∀ e ∈ entries, e.applies wanted = true ∨ Text.isBlank e = true := by
  rw [remaining_eq, List.map_eq_nil_iff, List.filter_eq_nil_iff]
  apply forall₂_congr
  intro e inside
  cases e.applies wanted <;> cases Text.isBlank e <;> simp

theorem prune_of_unapplied {wanted : Text} {b : Bracketed} {entries : List Entry}
    (divided : b.entries? = some entries)
    (unapplied : ∀ e ∈ entries, e.applies wanted = false) : b.prune wanted = ⟨b.source, 0⟩ := by
  have unremoved : entries.countP (Entry.applies wanted) = 0 := by
    rw [List.countP_eq_zero]
    simpa using unapplied
  simp [prune, divided, unremoved]

theorem prune_of_applied {wanted : Text} {b : Bracketed} {entries : List Entry}
    (divided : b.entries? = some entries) (applied : ∃ e ∈ entries, e.applies wanted = true) :
    b.prune wanted =
      ⟨b.withEntries (remaining wanted entries), entries.countP (Entry.applies wanted)⟩ := by
  have removed : entries.countP (Entry.applies wanted) ≠ 0 := by
    rw [← Nat.pos_iff_ne_zero, List.countP_pos_iff]
    exact applied
  simp [prune, divided, removed]

/-- A list that keeps entries is written with its target and a colon, if it has one, and with
its entries behind commas. -/
theorem withEntries_of_ne_nil {entries : List Text} (b : Bracketed) (something : entries ≠ []) :
    b.withEntries entries =
      .char '[' ::
          (b.target?.elim [] (· ++ Text.ofString ": ") ++
            List.intercalate (Text.ofString ", ") entries) ++
        .char ']' :: b.space ++ b.comment := by
  cases entries with
  | nil => contradiction
  | cons first more =>
      cases targeted : b.target? <;> simp [withEntries, source, targeted, targetText]

/-- The outcome that pruning computes is the only one a list can have. -/
theorem becomes_iff {wanted : Text} {b : Bracketed} {p : Pruned} :
    b.Becomes wanted p ↔ p = b.prune wanted := by
  constructor
  · intro becomes
    cases becomes with
    | undivided unread => simp [prune, unread]
    | untouched divided unapplied => rw [prune_of_unapplied divided unapplied]
    | emptied divided applied nothing =>
        rw [prune_of_applied divided applied, remaining_eq_nil_iff.mpr nothing]
        rfl
    | shortened divided applied others something =>
        rw [prune_of_applied divided applied, remaining_eq, ← others,
          withEntries_of_ne_nil b (by simpa using something)]
  · rintro rfl
    cases divided : b.entries? with
    | none =>
        have stays : b.prune wanted = ⟨b.source, 0⟩ := by simp [prune, divided]
        rw [stays]
        exact .undivided divided
    | some entries =>
        by_cases applied : ∃ e ∈ entries, e.applies wanted = true
        · rw [prune_of_applied divided applied]
          by_cases nothing : remaining wanted entries = []
          · rw [nothing]
            apply Becomes.emptied divided applied
            exact remaining_eq_nil_iff.mp nothing
          · rw [withEntries_of_ne_nil b nothing, remaining_eq]
            apply Becomes.shortened divided applied rfl
            simpa [remaining_eq] using nothing
        · have unapplied : ∀ e ∈ entries, e.applies wanted = false := by simpa using applied
          rw [prune_of_unapplied divided unapplied]
          exact .untouched divided unapplied

end Bracketed

end AttributeLists
