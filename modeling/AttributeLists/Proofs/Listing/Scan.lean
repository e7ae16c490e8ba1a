/-
# What the scan of a source text finds

`LaidOut` says when a layout is a scan's view of a text, without telling how the
scan proceeds: no gap before a list holds an opening bracket, each list stops where
it must, and after the last list no opening bracket is closed again. Exactly one
layout satisfies this for each text, and it is the one that `Layout.ofText` finds.
-/

import Mathlib.Data.List.TakeWhile
import AttributeLists.Listing.Layout
import AttributeLists.Proofs.Text.LeadingRun

namespace AttributeLists

/-- The two slashes that start a line comment. -/
def slashes : Text :=
  [.char '/', .char '/']

namespace Bracketed

/-- Where a list ends when `rest` follows it. Its body holds no closing bracket, its
spacing goes on as far as there are spaces and tabs, and it has a comment exactly
when two slashes follow, which then reaches to the end of the line. -/
structure StandsBefore (b : Bracketed) (rest : Text) : Prop where
  body : .char ']' ∉ b.body
  space : ∀ g ∈ b.space, g.isSpacing = true
  space_ends : ∀ g ∈ (b.comment ++ rest).head?, g.isSpacing = false
  comment :
    b.comment = [] ∧ ¬ slashes <+: rest ∨
      slashes <+: b.comment ∧ (∀ g ∈ b.comment, g.isLineBreak = false) ∧
        ∀ g ∈ rest.head?, g.isLineBreak = true

theorem readComment_eq_of_slashes {comment rest : Text} (start : slashes <+: comment)
    (inside : ∀ g ∈ comment, g.isLineBreak = false)
    (outside : ∀ g ∈ rest.head?, g.isLineBreak = true) :
    readComment (comment ++ rest) = (comment, rest) := by
  rcases start with ⟨more, rfl⟩
  have taken : (slashes ++ more ++ rest).takeWhile (!·.isLineBreak) = slashes ++ more :=
    Text.takeWhile_append_of_head? (by simpa using inside) (by simpa using outside)
  have dropped : (slashes ++ more ++ rest).dropWhile (!·.isLineBreak) = rest :=
    Text.dropWhile_append_of_head? (by simpa using inside) (by simpa using outside)
  simp only [slashes, List.cons_append, List.nil_append] at taken dropped
  simp only [slashes, List.cons_append, List.nil_append, readComment, taken, dropped]

theorem readComment_eq_of_not_slashes {rest : Text} (unslashed : ¬ slashes <+: rest) :
    readComment rest = ([], rest) := by
  unfold readComment
  split
  · exact absurd ⟨_, rfl⟩ unslashed
  · rfl

theorem readComment_spec (t : Text) :
    (readComment t).1 = [] ∧ ¬ slashes <+: (readComment t).2 ∨
      slashes <+: (readComment t).1 ∧ (∀ g ∈ (readComment t).1, g.isLineBreak = false) ∧
        ∀ g ∈ (readComment t).2.head?, g.isLineBreak = true := by
  unfold readComment
  split
  · rename_i more
    refine .inr ⟨⟨more.takeWhile (!·.isLineBreak), rfl⟩, ?_, ?_⟩
    · intro g inside
      simpa using Text.mem_takeWhile_eq_true _ g inside
    · intro g first
      simpa using Text.head?_dropWhile_eq_false _ g first
  · rename_i other
    refine .inl ⟨rfl, ?_⟩
    rintro ⟨more, rfl⟩
    exact other more rfl

theorem read?_eq_none_iff {t : Text} : read? t = none ↔ .char ']' ∉ t := by
  have unclosed : t.dropWhile (· != .char ']') = [] ↔ .char ']' ∉ t := by
    simp only [List.dropWhile_eq_nil_iff, bne_iff_ne]
    exact ⟨fun all inside => all _ inside rfl, fun lacking g inside same => lacking (same ▸ inside)⟩
  rw [← unclosed]
  unfold read?
  split <;> simp_all

theorem source_append (b : Bracketed) (rest : Text) :
    b.source ++ rest =
      .char '[' :: (b.body ++ .char ']' :: (b.space ++ (b.comment ++ rest))) := by
  simp [source]

/-- A list is read after an opening bracket exactly if it stands there. -/
theorem read?_eq_some_iff {t rest : Text} {b : Bracketed} :
    read? t = some (b, rest) ↔ .char '[' :: t = b.source ++ rest ∧ b.StandsBefore rest := by
  constructor
  · intro found
    refine ⟨(append_of_read? found).symm, ?_⟩
    unfold read? at found
    split at found
    · exact absurd found (by simp)
    · rename_i closing trailing stopped
      simp only [Option.some.injEq, Prod.mk.injEq] at found
      rcases found with ⟨rfl, rfl⟩
      refine ⟨?_, Text.mem_takeWhile_eq_true trailing, ?_, readComment_spec _⟩
      · intro inside
        simpa using Text.mem_takeWhile_eq_true t _ inside
      · rw [append_readComment]
        exact Text.head?_dropWhile_eq_false trailing
  · intro standing
    rcases standing with ⟨whole, stands⟩
    rcases b with ⟨body, space, comment⟩
    rw [source_append, List.cons.injEq] at whole
    rcases whole with ⟨-, rfl⟩
    have body_inside := Text.bne_of_not_mem stands.body
    have dropped : (body ++ .char ']' :: (space ++ (comment ++ rest))).dropWhile (· != .char ']') =
        .char ']' :: (space ++ (comment ++ rest)) :=
      Text.dropWhile_append_of_head? body_inside (by simp)
    have taken : (body ++ .char ']' :: (space ++ (comment ++ rest))).takeWhile (· != .char ']') =
        body :=
      Text.takeWhile_append_of_head? body_inside (by simp)
    have read : readComment (comment ++ rest) = (comment, rest) := by
      rcases stands.comment with ⟨rfl, none⟩ | ⟨start, inside, outside⟩
      · exact readComment_eq_of_not_slashes none
      · exact readComment_eq_of_slashes start inside outside
    simp only [read?, dropped, taken,
      Text.takeWhile_append_of_head? stands.space stands.space_ends,
      Text.dropWhile_append_of_head? stands.space stands.space_ends, read]

end Bracketed

/-- A layout is what a scan of the text must find. -/
inductive LaidOut : Text → Layout → Prop
  /-- No opening bracket of the text is closed after it. -/
  | tail {t : Text} (unclosed : ∀ before after, t = before ++ .char '[' :: after →
      .char ']' ∉ after) : LaidOut t ⟨[], t⟩
  /-- The first opening bracket of the text starts a list. -/
  | list {gap rest : Text} {b : Bracketed} {l : Layout} (gap_closed : .char '[' ∉ gap)
      (stands : b.StandsBefore rest) (laid : LaidOut rest l) :
      LaidOut (gap ++ (b.source ++ rest)) (l.cons gap b)

namespace LaidOut

theorem suffix_of_first {gap inner before after : Text} (gap_closed : .char '[' ∉ gap)
    (whole : gap ++ .char '[' :: inner = before ++ .char '[' :: after) : after <:+ inner := by
  obtain ⟨more, -, shared⟩ := Text.exists_append_of_not_mem gap_closed whole
  cases more with
  | nil =>
      obtain ⟨-, rfl⟩ := List.cons.inj shared
      exact List.suffix_rfl
  | cons g more =>
      obtain ⟨-, rfl⟩ := List.cons.inj shared
      exact ⟨more ++ [.char '['], by simp⟩

private theorem eq_takeWhile_append {t inner : Text} {g : Glyph}
    (opened : t.dropWhile (· != .char '[') = g :: inner) :
    t.takeWhile (· != .char '[') ++ .char '[' :: inner = t ∧
      .char '[' ∉ t.takeWhile (· != .char '[') := by
  obtain ⟨opening, whole⟩ := Text.of_dropWhile_eq_cons opened
  rw [bne_eq_false_iff_eq] at opening
  subst opening
  refine ⟨whole, fun inside => ?_⟩
  simpa using Text.mem_takeWhile_eq_true t _ inside

/-- The scan finds a layout of the text. -/
theorem ofText (t : Text) : LaidOut t (Layout.ofText t) := by
  fun_induction Layout.ofText t with
  | case1 t opened =>
      refine .tail fun before after whole => ?_
      have unopened : .char '[' ∉ t := by
        intro inside
        simpa using List.dropWhile_eq_nil_iff.mp opened _ inside
      exact absurd (by simp [whole]) unopened
  | case2 t g inner opened unread =>
      obtain ⟨whole, gap_closed⟩ := eq_takeWhile_append opened
      refine .tail fun before after other => ?_
      have later : after <:+ inner := suffix_of_first gap_closed (whole.trans other)
      exact fun inside => Bracketed.read?_eq_none_iff.mp unread (later.subset inside)
  | case3 t g inner opened b rest found ih =>
      obtain ⟨whole, gap_closed⟩ := eq_takeWhile_append opened
      obtain ⟨shown, stands⟩ := Bracketed.read?_eq_some_iff.mp found
      have laid := LaidOut.list gap_closed stands ih
      rwa [← shown, whole] at laid

theorem exists_standsBefore {t gap : Text} {l : Layout} {b : Bracketed} (laid : LaidOut t l)
    (listed : (gap, b) ∈ l.parts) : ∃ rest, b.StandsBefore rest := by
  induction laid with
  | tail unclosed => contradiction
  | @list other_gap rest other l gap_closed stands laid ih =>
      rcases List.mem_cons.mp listed with same | later
      · obtain ⟨-, rfl⟩ := Prod.mk.inj same
        exact ⟨rest, stands⟩
      · exact ih later

/-- A layout of the text is what the scan finds. -/
theorem eq_ofText {t : Text} {l : Layout} (laid : LaidOut t l) : l = Layout.ofText t := by
  induction laid with
  | @tail t unclosed =>
      rw [Layout.ofText]
      split
      · rfl
      · rename_i g inner opened
        have unread : Bracketed.read? inner = none :=
          Bracketed.read?_eq_none_iff.mpr (unclosed _ _ (eq_takeWhile_append opened).1.symm)
        split
        · rfl
        · simp_all
  | @list gap rest b l gap_closed stands laid ih =>
      have inside := Text.bne_of_not_mem gap_closed
      have taken : (gap ++ (b.source ++ rest)).takeWhile (· != .char '[') = gap :=
        Text.takeWhile_append_of_head? inside (by simp [Bracketed.source_append])
      have dropped : (gap ++ (b.source ++ rest)).dropWhile (· != .char '[') = b.source ++ rest :=
        Text.dropWhile_append_of_head? inside (by simp [Bracketed.source_append])
      have found := Bracketed.read?_eq_some_iff.mpr
        ⟨(Bracketed.source_append b rest).symm, stands⟩
      rw [Layout.ofText]
      split
      · rename_i opened
        rw [dropped, Bracketed.source_append] at opened
        exact absurd opened (by simp)
      · rename_i g inner opened
        rw [dropped, Bracketed.source_append, List.cons.injEq] at opened
        rcases opened with ⟨-, rfl⟩
        split
        · rename_i unread
          exact absurd (unread.symm.trans found) (by simp)
        · rename_i other after read
          obtain ⟨rfl, rfl⟩ : other = b ∧ after = rest := by
            simpa using read.symm.trans found
          rw [taken, ih]

end LaidOut

end AttributeLists
