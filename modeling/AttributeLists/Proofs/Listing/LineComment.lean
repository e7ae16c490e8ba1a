/-
# Line comments among the entries of a list

Where a source is read as code, two slashes outside literals start a comment that reaches
to the end of the line. The division of a list body knows no comments: the slashes and what
follows them belong to the entry they stand in, and so does the line break that ends the
comment. Trimming takes that line break off if nothing of the entry shows behind it, and
what is written next, a comma or the closing bracket, becomes a part of the comment.

So the punctuation of a list that is written anew stays out of comments exactly if each
comment in a kept entry is followed by more of its entry on a later line.
-/

import AttributeLists.Proofs.Listing.Renewed
import AttributeLists.Proofs.Text.FlushLeft

namespace AttributeLists

namespace Commas

/-- Not inside a literal. -/
def State.isOutside (s : State) : Bool :=
  match s.mode with
  | .outside _ | .verbatimQuote => true
  | .regular _ | .escaped _ | .verbatim => false

/-- What follows each two slashes outside literals, in a text that is read from a state. -/
def commentsFrom (s : State) : Text → List Text
  | [] => []
  | g :: rest =>
      let later :=
        match s.step g with
        | some next => commentsFrom next rest
        | none => []
      if s.isOutside ∧ g = .char '/' ∧ rest.head? = some (.char '/') then rest.tail :: later
      else later

theorem commentsFrom_cons_of_isBlank {g : Glyph} (blank : g.isBlank = true) (s : State)
    (t : Text) : commentsFrom s (g :: t) = commentsFrom s.afterBlank t := by
  have unequal : g ≠ .char '/' := Glyph.ne_of_isBlank blank rfl
  simp [commentsFrom, unequal, State.step_of_isBlank blank]

/-- Blanks in front of a text start no comment and leave the reading as it is. -/
theorem commentsFrom_append_of_isBlank {lead : Text} (blank : lead.isBlank = true) (t : Text) :
    commentsFrom .start (lead ++ t) = commentsFrom .start t := by
  induction lead with
  | nil => rfl
  | cons g lead ih =>
      rw [Text.isBlank_cons_iff] at blank
      rw [List.cons_append, commentsFrom_cons_of_isBlank blank.1, State.afterBlank_start]
      exact ih blank.2

theorem commentsFrom_of_isBlank {t : Text} (blank : t.isBlank = true) (s : State) :
    commentsFrom s t = [] := by
  induction t generalizing s with
  | nil => rfl
  | cons g t ih =>
      rw [Text.isBlank_cons_iff] at blank
      rw [commentsFrom_cons_of_isBlank blank.1]
      exact ih blank.2 s.afterBlank

/-- Blanks behind a text are a part of all of its comments. -/
theorem commentsFrom_append_trail {trail : Text} (blank : trail.isBlank = true) (s : State)
    (t : Text) : commentsFrom s (t ++ trail) = (commentsFrom s t).map (· ++ trail) := by
  induction t generalizing s with
  | nil => exact commentsFrom_of_isBlank blank s
  | cons g t ih =>
      have later : (match s.step g with
          | some next => commentsFrom next (t ++ trail)
          | none => []) =
          (match s.step g with
          | some next => commentsFrom next t
          | none => []).map (· ++ trail) := by
        cases s.step g with
        | none => rfl
        | some next => exact ih next
      have second : (t ++ trail).head? = some (.char '/') ↔ t.head? = some (.char '/') := by
        cases t with
        | nil =>
            simp only [List.nil_append, List.head?_nil, reduceCtorEq, iff_false]
            intro slash
            have shown := Text.isBlank_iff.mp blank _ (List.mem_of_head? slash)
            exact absurd shown (by decide)
        | cons h t => rfl
      rw [List.cons_append, commentsFrom, commentsFrom, later]
      simp only [second]
      split
      · rename_i starts
        rw [List.map_cons, List.tail_append_of_ne_nil]
        intro empty
        simp [empty] at starts
      · rfl

theorem mem_commentsFrom_cons {s : State} {g : Glyph} {t rest : Text} :
    rest ∈ commentsFrom s (g :: t) ↔
      (s.isOutside = true ∧ g :: t = slashes ++ rest) ∨
        ∃ next, s.step g = some next ∧ rest ∈ commentsFrom next t := by
  have here : g :: t = slashes ++ rest ↔
      g = .char '/' ∧ t.head? = some (.char '/') ∧ rest = t.tail := by
    cases t with
    | nil => simp [slashes]
    | cons h t => simp [slashes, eq_comm]
  rw [commentsFrom, here]
  cases s.step g <;> split <;> simp_all

/-- A comment follows two slashes that are reached outside literals, and nothing else. -/
theorem mem_commentsFrom_iff {s : State} {t rest : Text} :
    rest ∈ commentsFrom s t ↔
      ∃ before reached, t = before ++ (slashes ++ rest) ∧
        before.foldlM State.step s = some reached ∧ reached.isOutside = true := by
  induction t generalizing s with
  | nil => simp [commentsFrom, slashes]
  | cons g t ih =>
      rw [mem_commentsFrom_cons]
      constructor
      · rintro (⟨outside, whole⟩ | ⟨next, stepped, inside⟩)
        · exact ⟨[], s, whole, rfl, outside⟩
        · obtain ⟨before, reached, whole, read, outside⟩ := ih.mp inside
          refine ⟨g :: before, reached, ?_, ?_, outside⟩
          · rw [whole, List.cons_append]
          · rw [List.foldlM_cons, stepped]
            exact read
      · rintro ⟨before, reached, whole, read, outside⟩
        cases before with
        | nil =>
            injection read with same
            subst same
            exact .inl ⟨outside, whole⟩
        | cons h before =>
            injection whole with same whole
            subst same
            rw [List.foldlM_cons, Option.bind_eq_bind, Option.bind_eq_some_iff] at read
            obtain ⟨next, stepped, read⟩ := read
            exact .inr ⟨next, stepped, ih.mpr ⟨before, reached, whole, read, outside⟩⟩

end Commas

open Commas

namespace Text

/-- Something shows after the first line break. -/
def goesOn (t : Text) : Bool :=
  !Text.isBlank (t.dropWhile (!·.isLineBreak))

/-- Blanks behind a text that is trimmed at its end do not decide whether it goes on: it
does if it breaks a line at all. -/
theorem goesOn_append {t trail : Text} (shows : ∀ g ∈ t.getLast?, g.isBlank = false)
    (blank : trail.isBlank = true) : goesOn (t ++ trail) = t.any Glyph.isLineBreak := by
  rw [goesOn]
  cases breaks : t.any Glyph.isLineBreak with
  | false =>
      have unbroken : ∀ g ∈ t, (!g.isLineBreak) = true := by simpa using breaks
      rw [List.dropWhile_append_of_pos unbroken, Bool.not_eq_false']
      apply isBlank_iff.mpr
      intro g inside
      exact isBlank_iff.mp blank g ((List.dropWhile_sublist _).subset inside)
  | true =>
      have broken : t.dropWhile (!·.isLineBreak) ≠ [] := by
        rw [Ne, List.dropWhile_eq_nil_iff]
        simpa using breaks
      obtain ⟨front, whole⟩ := List.dropWhile_suffix (!Glyph.isLineBreak ·) (l := t)
      have last : List.getLast _ broken ∈ (front ++ t.dropWhile (!·.isLineBreak)).getLast? :=
        List.mem_getLast?_append_of_mem_getLast? (List.getLast?_eq_getLast_of_ne_nil broken)
      rw [whole] at last
      rw [List.dropWhile_append, if_neg (by simpa using broken), isBlank_append, Bool.not_eq_true',
        Bool.and_eq_false_iff]
      left
      rw [← Bool.not_eq_true, isBlank_iff]
      intro all_blank
      have shown := shows _ last
      rw [all_blank _ (List.getLast_mem broken)] at shown
      contradiction

end Text

namespace Entry

/-- Each comment in an entry is ended by a line break of the entry. -/
def endsComments (e : Entry) : Bool :=
  (commentsFrom .start e).all fun rest => rest.any Glyph.isLineBreak

/-- After each comment in an entry more of the entry shows on a later line. -/
def goesOnAfterComments (e : Entry) : Bool :=
  (commentsFrom .start e).all Text.goesOn

theorem endsComments_cons_of_isBlank {g : Glyph} (blank : g.isBlank = true) (e : Entry) :
    endsComments (g :: e) = endsComments e := by
  rw [endsComments, commentsFrom_cons_of_isBlank blank, State.afterBlank_start, endsComments]

/-- The comments that trimming leaves ended are those that the entry goes on after. -/
theorem endsComments_trim (e : Entry) : endsComments (Text.trim e) = goesOnAfterComments e := by
  obtain ⟨lead, trail, lead_blank, trail_blank, whole⟩ := Text.exists_eq_append_trim e
  have comments : commentsFrom .start e =
      (commentsFrom .start (Text.trim e)).map (· ++ trail) := by
    conv_lhs => rw [whole]
    rw [commentsFrom_append_of_isBlank lead_blank, commentsFrom_append_trail trail_blank]
  rw [goesOnAfterComments, comments, List.all_map, endsComments, Bool.eq_iff_iff,
    List.all_eq_true, List.all_eq_true]
  refine forall₂_congr fun rest inside => ?_
  have shows : ∀ g ∈ rest.getLast?, g.isBlank = false := by
    intro g last
    obtain ⟨before, _, whole, _⟩ := mem_commentsFrom_iff.mp inside
    apply Text.getLast?_trim e
    rw [whole, ← List.append_assoc]
    exact List.mem_getLast?_append_of_mem_getLast? last
  rw [Function.comp_apply, Text.goesOn_append shows trail_blank]

theorem goesOnAfterComments_of_isBlank {e : Entry} (blank : Text.isBlank e = true) :
    goesOnAfterComments e = true := by
  rw [goesOnAfterComments, commentsFrom_of_isBlank blank]
  rfl

end Entry

namespace Bracketed

/-- The entries that are printed end all of their comments exactly if the entries that are
kept go on after all of theirs. -/
theorem endsComments_printed_iff {wanted : Text} {entries : List Entry} {first : Text}
    {more : List Text} (kept : remaining wanted entries = first :: more) :
    (∀ e ∈ first :: more.map (.char ' ' :: ·), Entry.endsComments e = true) ↔
      ∀ e ∈ entries, e.applies wanted = false → e.goesOnAfterComments = true := by
  have spaced (e : Text) : Entry.endsComments (.char ' ' :: e) = Entry.endsComments e :=
    Entry.endsComments_cons_of_isBlank rfl e
  have printed : (∀ e ∈ first :: more.map (.char ' ' :: ·), Entry.endsComments e = true) ↔
      ∀ e ∈ remaining wanted entries, Entry.endsComments e = true := by
    rw [kept, List.forall_mem_cons, List.forall_mem_cons, List.forall_mem_map]
    simp only [spaced]
  rw [printed, remaining_eq, List.forall_mem_map]
  simp only [Entry.endsComments_trim]
  constructor
  · intro goes e inside unapplied
    cases blank : Text.isBlank e with
    | true => exact Entry.goesOnAfterComments_of_isBlank blank
    | false =>
        apply goes e
        simp [inside, unapplied, blank]
  · intro goes e chosen
    simp only [List.mem_filter, Bool.and_eq_true, Bool.not_eq_true'] at chosen
    exact goes e chosen.1 chosen.2.1

/-- A list that keeps some of its entries is written as its target and what remains of
them between brackets. The comma or the bracket behind an entry stays out of its comments,
for all entries, exactly if every entry that is kept goes on, after each of its comments,
on a later line. -/
theorem comments_end_before_punctuation_iff {wanted : Text} {b : Bracketed}
    {entries : List Entry} {first : Text} {more : List Text}
    (divided : b.entries? = some entries)
    (applied : ∃ e ∈ entries, e.applies wanted = true)
    (kept : remaining wanted entries = first :: more) :
    ∃ printed,
      (b.prune wanted).text =
        .char '[' :: (targetText b.target? ++
          List.intercalate (Text.ofString ", ") (first :: more)) ++
            .char ']' :: b.space ++ b.comment ∧
      splitEntries (List.intercalate (Text.ofString ", ") (first :: more)) = some printed ∧
      ((∀ e ∈ printed, Entry.endsComments e = true) ↔
        ∀ e ∈ entries, e.applies wanted = false → e.goesOnAfterComments = true) := by
  refine ⟨first :: more.map (.char ' ' :: ·), ?_, ?_, endsComments_printed_iff kept⟩
  · rw [text_prune_of_remaining divided applied kept]
    rfl
  · apply splitEntries_intercalate
    rw [← kept]
    exact whole_of_mem_remaining divided

/-- Slashes in a literal start no comment, and a comment between arguments is followed by
more of its entry. -/
theorem comments_end_between_arguments :
    let b : Bracketed := ⟨Text.ofString "A(\"//\", // one\n 1), T, B", [], []⟩
    b.entries? = some
        [Text.ofString "A(\"//\", // one\n 1)", Text.ofString " T", Text.ofString " B"] ∧
      ∃ printed,
        splitEntries (List.intercalate (Text.ofString ", ")
          [Text.ofString "A(\"//\", // one\n 1)", Text.ofString "B"]) = some printed ∧
        ∀ e ∈ printed, Entry.endsComments e = true := by
  intro b
  have divided : b.entries? = some
      [Text.ofString "A(\"//\", // one\n 1)", Text.ofString " T", Text.ofString " B"] := by
    decide +kernel
  have kept : remaining (Text.ofString "T")
      [Text.ofString "A(\"//\", // one\n 1)", Text.ofString " T", Text.ofString " B"] =
        [Text.ofString "A(\"//\", // one\n 1)", Text.ofString "B"] := by
    decide +kernel
  obtain ⟨printed, -, found, ends_iff⟩ :=
    comments_end_before_punctuation_iff divided
      ⟨Text.ofString " T", by decide, by decide +kernel⟩ kept
  exact ⟨divided, printed, found, ends_iff.mpr (by decide +kernel)⟩

/-- A comment at the end of an entry loses the line break that ends it, and the closing
bracket becomes a part of the comment. -/
theorem comment_takes_closing_bracket :
    let b : Bracketed := ⟨Text.ofString "A // note\n, T", [], []⟩
    let entries := [Text.ofString "A // note\n", Text.ofString " T"]
    ([], b) ∈ (Layout.ofText (Text.ofString "[A // note\n, T]")).parts ∧
      b.entries? = some entries ∧
      (∀ e ∈ entries, Entry.applies (Text.ofString "T") e = false →
        Entry.endsComments e = true) ∧
      b.prune (Text.ofString "T") = ⟨Text.ofString "[A // note]", 1⟩ ∧
      splitEntries (Text.ofString "A // note") = some [Text.ofString "A // note"] ∧
      Entry.endsComments (Text.ofString "A // note") = false := by
  decide +kernel

end Bracketed

end AttributeLists
