/-
# The one division of a text into gaps and lists

`LaidOut` follows a text from front to back. `Layout.Divides` says the same of the text as
a whole: what a gap cannot hold, where each list stops, and that nothing closes the first
opening bracket behind the last list. One layout divides a text so, and the scan finds it.

A list can often be read at an opening bracket inside another one, in its body or in its
comment. The scan never reads such a list: the lists it finds stand one behind the other,
and wherever else a list could be read, one that it found has already begun and not yet
ended.
-/

import AttributeLists.Proofs.Listing.Scan

namespace AttributeLists

namespace Bracketed

/-- The list stands in the text at an offset, and it stops where it must. -/
def StandsAt (b : Bracketed) (t : Text) (start : Nat) : Prop :=
  ∃ rest, t.drop start = b.source ++ rest ∧ b.StandsBefore rest

/-- One list can be read at a place, and one rest is left behind it. -/
theorem StandsBefore.eq_of_source_append {b c : Bracketed} {rest other : Text}
    (stands : b.StandsBefore rest) (other_stands : c.StandsBefore other)
    (same : b.source ++ rest = c.source ++ other) : b = c ∧ rest = other := by
  have found := read?_eq_some_iff.mpr ⟨(source_append b rest).symm, stands⟩
  have other_found := read?_eq_some_iff.mpr ⟨(source_append c other).symm, other_stands⟩
  rw [source_append, source_append, List.cons.injEq] at same
  rw [same.2, other_found] at found
  obtain ⟨rfl, rfl⟩ := Prod.mk.inj (Option.some.inj found)
  exact ⟨rfl, rfl⟩

theorem standsAt_append {b : Bracketed} {front t : Text} {start : Nat} :
    b.StandsAt (front ++ t) (front.length + start) ↔ b.StandsAt t start := by
  rw [StandsAt, List.drop_length_add_append, StandsAt]

theorem StandsAt.getElem? {b : Bracketed} {t : Text} {start : Nat} (here : b.StandsAt t start) :
    t[start]? = some (.char '[') := by
  obtain ⟨rest, begins, -⟩ := here
  rw [← List.head?_drop, begins, source_append]
  rfl

end Bracketed

namespace Layout

/-- The gaps and lists of the layout are what a scan of the text must find. -/
structure Divides (l : Layout) (t : Text) : Prop where
  /-- The gaps and lists, one after the other, are the text. -/
  whole : l.source = t
  /-- No gap passes over an opening bracket. -/
  gaps : ∀ part ∈ l.parts, .char '[' ∉ part.1
  /-- Each list stops where it must before all that follows it. -/
  lists : ∀ before gap b after, l.parts = before ++ (gap, b) :: after →
    b.StandsBefore (source ⟨after, l.tail⟩)
  /-- Nothing closes the first opening bracket behind the last list. -/
  tail : ∀ before after, .char '[' ∉ before → l.tail = before ++ .char '[' :: after →
    .char ']' ∉ after

@[simp]
theorem source_cons (gap : Text) (b : Bracketed) (l : Layout) :
    (l.cons gap b).source = gap ++ (b.source ++ l.source) := by
  simp [source, cons]

theorem divides_cons_iff {t gap : Text} {b : Bracketed} {l : Layout} :
    (l.cons gap b).Divides t ↔
      ∃ rest, t = gap ++ (b.source ++ rest) ∧ .char '[' ∉ gap ∧ b.StandsBefore rest ∧
        l.Divides rest := by
  constructor
  · intro divides
    refine ⟨l.source, ?_, divides.gaps (gap, b) List.mem_cons_self,
      divides.lists [] gap b l.parts rfl, rfl, ?_, ?_, divides.tail⟩
    · rw [← divides.whole, source_cons]
    · intro part inside
      exact divides.gaps part (List.mem_cons_of_mem (gap, b) inside)
    · intro before other_gap other after split
      exact divides.lists ((gap, b) :: before) other_gap other after (by simp [cons, split])
  · rintro ⟨rest, rfl, gap_closed, stands, divides⟩
    obtain rfl := divides.whole
    refine ⟨source_cons gap b l, ?_, ?_, divides.tail⟩
    · exact List.forall_mem_cons.mpr ⟨gap_closed, divides.gaps⟩
    · intro before other_gap other after split
      rcases List.cons_eq_append_iff.mp split with ⟨rfl, same⟩ | ⟨before, rfl, split⟩
      · obtain ⟨first, rfl⟩ := List.cons.inj same
        obtain ⟨rfl, rfl⟩ := Prod.mk.inj first
        exact stands
      · exact divides.lists before other_gap other after (List.cons.inj split).2

/-- What holds of the first opening bracket holds of all that come later. -/
theorem divides_nil_iff {t tail : Text} :
    (⟨[], tail⟩ : Layout).Divides t ↔
      t = tail ∧ ∀ before after, tail = before ++ .char '[' :: after → .char ']' ∉ after := by
  constructor
  · intro divides
    refine ⟨divides.whole.symm, fun before after whole closed => ?_⟩
    have opened : .char '[' ∈ tail := by simp [whole]
    obtain ⟨front, inner, first, front_closed⟩ := List.eq_append_cons_of_mem opened
    have later : after <:+ inner := LaidOut.suffix_of_first front_closed (first.symm.trans whole)
    exact divides.tail front inner front_closed first (later.subset closed)
  · rintro ⟨rfl, unclosed⟩
    exact ⟨rfl, by simp, by simp, fun before after _ whole => unclosed before after whole⟩

/-- Told from front to back or of the whole text at once, it is the same. -/
theorem divides_iff {t : Text} {l : Layout} : l.Divides t ↔ LaidOut t l := by
  constructor
  · intro divides
    rcases l with ⟨parts, tail⟩
    induction parts generalizing t with
    | nil =>
        obtain ⟨rfl, unclosed⟩ := divides_nil_iff.mp divides
        exact .tail unclosed
    | cons part parts ih =>
        rcases part with ⟨gap, b⟩
        obtain ⟨rest, rfl, gap_closed, stands, later⟩ :=
          (@divides_cons_iff t gap b ⟨parts, tail⟩).mp divides
        exact .list gap_closed stands (ih later)
  · intro laid
    induction laid with
    | tail unclosed => exact divides_nil_iff.mpr ⟨rfl, unclosed⟩
    | list gap_closed stands laid ih =>
        exact divides_cons_iff.mpr ⟨_, rfl, gap_closed, stands, ih⟩

theorem startsFrom_add (offset shift : Nat) (parts : List (Text × Bracketed)) :
    startsFrom (shift + offset) parts =
      (startsFrom offset parts).map fun found => (shift + found.1, found.2) := by
  induction parts generalizing offset with
  | nil => rfl
  | cons part parts ih =>
      rcases part with ⟨gap, b⟩
      simp only [startsFrom, List.map_cons, Nat.add_assoc, ih]

/-- The first list starts behind its gap, and the others start later by what it takes. -/
theorem starts_cons (gap : Text) (b : Bracketed) (l : Layout) :
    (l.cons gap b).starts =
      (gap.length, b) ::
        l.starts.map fun found => ((gap ++ b.source).length + found.1, found.2) := by
  simp only [starts, cons, startsFrom, ← startsFrom_add, List.length_append, Nat.zero_add,
    Nat.add_zero]

/-- No list starts before the one in front of it has ended. -/
theorem pairwise_starts (l : Layout) :
    l.starts.Pairwise fun first second => first.1 + first.2.source.length ≤ second.1 := by
  rcases l with ⟨parts, tail⟩
  induction parts with
  | nil => exact .nil
  | cons part parts ih =>
      rcases part with ⟨gap, b⟩
      have whole : (⟨(gap, b) :: parts, tail⟩ : Layout) = cons gap b ⟨parts, tail⟩ := rfl
      rw [whole, starts_cons, List.pairwise_cons, List.pairwise_map]
      constructor
      · intro found inside
        obtain ⟨other, -, rfl⟩ := List.mem_map.mp inside
        simp only [List.length_append]
        omega
      · refine ih.imp fun ordered => ?_
        simpa only [Nat.add_assoc] using Nat.add_le_add_left ordered _

end Layout

namespace LaidOut

variable {t : Text} {l : Layout}

theorem standsAt_of_mem_starts (laid : LaidOut t l) :
    ∀ found ∈ l.starts, found.2.StandsAt t found.1 := by
  induction laid with
  | tail unclosed => simp [Layout.starts, Layout.startsFrom]
  | @list gap rest b l gap_closed stands laid ih =>
      rw [Layout.starts_cons, List.forall_mem_cons, List.forall_mem_map]
      constructor
      · exact ⟨rest, List.drop_left, stands⟩
      · intro found inside
        rw [← List.append_assoc, Bracketed.standsAt_append]
        exact ih found inside

/-- Where a list can be read, the scan reads it or is inside a list. -/
theorem found_or_inside (laid : LaidOut t l) {b : Bracketed} {start : Nat}
    (here : b.StandsAt t start) :
    (start, b) ∈ l.starts ∨
      ∃ found ∈ l.starts, found.1 < start ∧ start < found.1 + found.2.source.length := by
  induction laid generalizing start with
  | @tail t unclosed =>
      obtain ⟨rest, begins, -⟩ := here
      have whole := List.take_append_drop start t
      rw [begins, Bracketed.source_append] at whole
      exact absurd (by simp) (unclosed _ _ whole.symm)
  | @list gap rest c l gap_closed stands laid ih =>
      rw [Layout.starts_cons]
      by_cases passed : (gap ++ c.source).length ≤ start
      · -- The place lies behind the first list.
        obtain ⟨later, rfl⟩ := Nat.exists_eq_add_of_le passed
        rw [← List.append_assoc, Bracketed.standsAt_append] at here
        rcases ih here with listed | ⟨found, inside, began, unended⟩
        · exact .inl (List.mem_cons_of_mem _ (List.mem_map.mpr ⟨_, listed, rfl⟩))
        · refine .inr ⟨_, List.mem_cons_of_mem _ (List.mem_map_of_mem inside), ?_, ?_⟩
          · exact Nat.add_lt_add_left began _
          · rw [Nat.add_assoc]
            exact Nat.add_lt_add_left unended _
      · rcases Nat.lt_trichotomy start gap.length with before | rfl | after
        · have opening := here.getElem?
          rw [List.getElem?_append_left before] at opening
          exact absurd (List.mem_of_getElem? opening) gap_closed
        · obtain ⟨other, begins, other_stands⟩ := here
          rw [List.drop_left] at begins
          obtain ⟨rfl, -⟩ := stands.eq_of_source_append other_stands begins
          exact .inl List.mem_cons_self
        · refine .inr ⟨_, List.mem_cons_self, after, ?_⟩
          rw [List.length_append] at passed
          exact Nat.lt_of_not_le passed

end LaidOut

namespace Layout

/-- One layout divides a text, and the scan finds it. Its lists stand in the text one behind
the other, and any other list that could be read begins inside one of them. -/
theorem ofText_sole_division (t : Text) :
    (∀ l : Layout, l.Divides t ↔ l = ofText t) ∧
      (ofText t).starts.Pairwise
        (fun first second => first.1 + first.2.source.length ≤ second.1) ∧
      (∀ found ∈ (ofText t).starts, found.2.StandsAt t found.1) ∧
      ∀ b start, b.StandsAt t start →
        (start, b) ∈ (ofText t).starts ∨
          ∃ found ∈ (ofText t).starts,
            found.1 < start ∧ start < found.1 + found.2.source.length := by
  have laid := LaidOut.ofText t
  refine ⟨fun l => ?_, pairwise_starts _, laid.standsAt_of_mem_starts, ?_⟩
  · rw [divides_iff]
    constructor
    · exact LaidOut.eq_ofText
    · rintro rfl
      exact laid
  · exact fun b start here => laid.found_or_inside here

/-- A bracket inside the body starts no list of its own, although `[A]` could be read there. -/
example : (ofText (Text.ofString "[[A]")).starts = [(0, ⟨Text.ofString "[A", [], []⟩)] := by
  decide +kernel

end Layout

end AttributeLists
