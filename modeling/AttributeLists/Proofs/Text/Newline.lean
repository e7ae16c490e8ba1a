/-
# Styles of line breaks

A text may end all its lines with the pair of carriage return and line feed, or do
without one of the two characters. Each of these styles can be checked stretch by
stretch: it holds of any text without line breaks, of stretches put together, and of the
two sides of any cut that does not separate such a pair. So it passes to everything that
is cut out of a text anywhere else, such as its lines or what trimming leaves.
-/

import AttributeLists.Proofs.Text.FlushLeft

namespace AttributeLists

namespace Text

/-- Carriage returns and line feeds occur only as pairs, the return right before the
feed. -/
structure CrlfPaired (t : Text) : Prop where
  /-- Every carriage return is followed by a line feed. -/
  feeds : ∀ before after, t = before ++ .char '\r' :: after → after.head? = some (.char '\n')
  /-- Every line feed is preceded by a carriage return. -/
  returns : ∀ before after, t = before ++ .char '\n' :: after →
    before.getLast? = some (.char '\r')

/-- The first text ends with a carriage return and the second starts with a line feed. -/
def SplitsPair (t u : Text) : Prop :=
  t.getLast? = some (.char '\r') ∧ u.head? = some (.char '\n')

theorem not_splitsPair_of_head? {t u : Text} (outside : ∀ g ∈ u.head?, g.isLineBreak = false) :
    ¬ SplitsPair t u := by
  rintro ⟨-, feed⟩
  exact absurd (outside _ feed) (by decide)

theorem not_splitsPair_of_getLast? {t u : Text}
    (outside : ∀ g ∈ t.getLast?, g.isLineBreak = false) : ¬ SplitsPair t u := by
  rintro ⟨feed, -⟩
  exact absurd (outside _ feed) (by decide)

/-- A property of texts that depends on their line breaks alone, where a carriage return
and the line feed after it count as one. -/
structure BreakStyle (P : Text → Prop) : Prop where
  unbroken : ∀ {t}, (∀ g ∈ t, g.isLineBreak = false) → P t
  append : ∀ {t u}, P t → P u → P (t ++ u)
  cut : ∀ {t u}, P (t ++ u) → ¬ SplitsPair t u → P t ∧ P u

theorem breakStyle_not_mem {mark : Glyph} (breaks : mark.isLineBreak = true) :
    BreakStyle fun t => mark ∉ t where
  unbroken outside inside := by
    rw [outside mark inside] at breaks
    contradiction
  append first second := by
    rw [List.mem_append, not_or]
    exact ⟨first, second⟩
  cut lacking _ := by
    rwa [List.mem_append, not_or] at lacking

theorem CrlfPaired.append {t u : Text} (first : CrlfPaired t) (second : CrlfPaired u) :
    CrlfPaired (t ++ u) where
  feeds before after whole := by
    rcases List.append_eq_append_iff.mp whole with ⟨more, -, rest⟩ | ⟨more, front, rest⟩
    · exact second.feeds more after rest
    · cases more with
      | nil => exact second.feeds [] after rest.symm
      | cons g more =>
          rw [List.cons_append, List.cons.injEq] at rest
          obtain ⟨rfl, rfl⟩ := rest
          rw [List.head?_append, first.feeds before more front]
          rfl
  returns before after whole := by
    rcases List.append_eq_append_iff.mp whole with ⟨more, rfl, rest⟩ | ⟨more, front, rest⟩
    · rw [List.getLast?_append, second.returns more after rest]
      rfl
    · cases more with
      | nil =>
          have unended := second.returns [] after rest.symm
          contradiction
      | cons g more =>
          obtain ⟨rfl, -⟩ := List.cons.inj rest
          exact first.returns before more front

/-- A cut that separates no pair leaves all pairs whole. -/
theorem CrlfPaired.cut {t u : Text} (paired : CrlfPaired (t ++ u))
    (whole : ¬ SplitsPair t u) : CrlfPaired t ∧ CrlfPaired u := by
  have unreturned : t.getLast? ≠ some (.char '\r') := by
    intro last
    obtain ⟨before, rfl⟩ := List.getLast?_eq_some_iff.mp last
    exact whole ⟨last, paired.feeds before u (by simp)⟩
  refine ⟨⟨?_, ?_⟩, ⟨?_, ?_⟩⟩
  · rintro before after rfl
    have feed := paired.feeds before (after ++ u) (by simp)
    cases after with
    | nil => simp at unreturned
    | cons g after => exact feed
  · rintro before after rfl
    exact paired.returns before (after ++ u) (by simp)
  · rintro before after rfl
    exact paired.feeds (t ++ before) after (by simp)
  · rintro before after rfl
    have last := paired.returns (t ++ before) after (by simp)
    rw [List.getLast?_append] at last
    cases found : before.getLast? with
    | none =>
        rw [found] at last
        exact absurd last unreturned
    | some g => rwa [found] at last

theorem breakStyle_crlfPaired : BreakStyle CrlfPaired where
  unbroken outside := by
    constructor
    · rintro before after rfl
      exact absurd (outside (.char '\r') (by simp)) (by decide)
    · rintro before after rfl
      exact absurd (outside (.char '\n') (by simp)) (by decide)
  append := CrlfPaired.append
  cut := CrlfPaired.cut

namespace BreakStyle

variable {P : Text → Prop} (style : BreakStyle P)
include style

theorem nil : P [] :=
  style.unbroken (by simp)

/-- A glyph that is no line break can be left out of a text. -/
theorem cut_cons {t u : Text} {g : Glyph} (shows : g.isLineBreak = false)
    (holds : P (t ++ g :: u)) : P t ∧ P u := by
  have head : ∀ h ∈ (g :: u).head?, h.isLineBreak = false := by simpa using shows
  obtain ⟨first, rest⟩ := style.cut holds (not_splitsPair_of_head? head)
  have last : ∀ h ∈ [g].getLast?, h.isLineBreak = false := by simpa using shows
  exact ⟨first, (style.cut (t := [g]) rest (not_splitsPair_of_getLast? last)).2⟩

/-- Trimming never stops within a pair, since both its characters are blank. -/
theorem trim {t : Text} (holds : P t) : P t.trim := by
  obtain ⟨lead, trail, -, -, whole⟩ := exists_eq_append_trim t
  by_cases nothing : t.trim = []
  · rw [nothing]
    exact style.nil
  · rw [whole] at holds
    have head : ∀ g ∈ (t.trim ++ trail).head?, g.isLineBreak = false := by
      rw [List.head?_append_of_ne_nil _ nothing]
      exact fun g first => Glyph.isLineBreak_of_shows (head?_trim t g first)
    have last : ∀ g ∈ t.trim.getLast?, g.isLineBreak = false :=
      fun g last => Glyph.isLineBreak_of_shows (getLast?_trim t g last)
    obtain ⟨-, rest⟩ := style.cut holds (not_splitsPair_of_head? head)
    exact (style.cut rest (not_splitsPair_of_getLast? last)).1

theorem flatten {pieces : List Text} (each : ∀ piece ∈ pieces, P piece) : P pieces.flatten := by
  induction pieces with
  | nil => exact style.nil
  | cons first more ih =>
      rw [List.flatten_cons]
      exact style.append (each first List.mem_cons_self)
        (ih fun piece inside => each piece (List.mem_cons_of_mem first inside))

/-- The texts of a join with commas keep its style. -/
theorem of_intercalate {texts : List Text} (holds : P (List.intercalate [.char ','] texts)) :
    ∀ t ∈ texts, P t := by
  induction texts with
  | nil => simp
  | cons first more ih =>
      by_cases single : more = []
      · subst single
        rw [List.intercalate_singleton] at holds
        simpa using holds
      · rw [List.intercalate_cons_of_ne_nil single, List.append_assoc] at holds
        obtain ⟨first_holds, rest⟩ := style.cut_cons (g := .char ',') rfl holds
        intro t inside
        rcases List.mem_cons.mp inside with rfl | later
        · exact first_holds
        · exact ih rest t later

end BreakStyle

end Text

theorem Text.crlfPaired_crlf : CrlfPaired LineEnding.crlf.text where
  feeds before after whole := by
    cases before with
    | nil =>
        rw [← (List.cons.inj whole).2]
        rfl
    | cons g before =>
        have inside : .char '\r' ∈ [Glyph.char '\n'] := (List.cons.inj whole).2 ▸ by simp
        exact absurd inside (by decide)
  returns before after whole := by
    cases before with
    | nil => exact absurd (List.cons.inj whole).1 (by decide)
    | cons g before =>
        obtain ⟨rfl, rest⟩ := List.cons.inj whole
        cases before with
        | nil => rfl
        | cons h before => exact absurd (List.cons.inj rest).2 (by simp)

/-- Lines that all end with the pair make a text of its style. -/
theorem Text.crlfPaired_flatMap {lines : List Text}
    (unbroken : ∀ l ∈ lines, ∀ g ∈ l, g.isLineBreak = false) :
    CrlfPaired (lines.flatMap (· ++ LineEnding.crlf.text)) := by
  rw [List.flatMap_def]
  apply breakStyle_crlfPaired.flatten
  intro piece listed
  obtain ⟨l, inside, rfl⟩ := List.mem_map.mp listed
  exact (breakStyle_crlfPaired.unbroken (unbroken l inside)).append crlfPaired_crlf

theorem LineEnding.not_splitsPair_read {t : Text} (finished : (read t).1 ≠ .unfinished) :
    ¬ Text.SplitsPair (read t).1.text (read t).2 := by
  unfold read at finished ⊢
  split
  · simp [Text.SplitsPair, text]
  · rename_i rest unpaired
    rintro ⟨-, feed⟩
    obtain ⟨more, rfl⟩ := List.head?_eq_some_iff.mp feed
    exact unpaired more rfl
  · simp [Text.SplitsPair, text]
  · simp_all

/-- No line is cut off within a pair. -/
theorem Line.not_splitsPair_read (t : Text) : ¬ Text.SplitsPair (read t).1.render (read t).2 := by
  by_cases unfinished : (read t).1.ending = .unfinished
  · rw [read_eq_nil_of_unfinished unfinished]
    exact fun splits => absurd splits.2 (by simp)
  · rintro ⟨last, feed⟩
    refine LineEnding.not_splitsPair_read unfinished ⟨?_, feed⟩
    have ended : (read t).1.ending.text ≠ [] := by
      cases ending : (read t).1.ending with
      | unfinished => contradiction
      | _ => simp [LineEnding.text]
    rwa [render, List.getLast?_append_of_ne_nil _ ended] at last

/-- The lines of a text and their endings keep its style. -/
theorem Text.BreakStyle.of_mem_lines {P : Text → Prop} (style : BreakStyle P) {t : Text}
    (holds : P t) : ∀ l ∈ t.lines, P l.render ∧ P l.ending.text := by
  fun_induction lines t with
  | case1 => simp
  | case2 g rest ih =>
      rw [← Line.render_append_read (g :: rest)] at holds
      obtain ⟨first, later⟩ := style.cut holds (Line.not_splitsPair_read (g :: rest))
      have inside : ∀ h ∈ (Line.read (g :: rest)).1.text.getLast?, h.isLineBreak = false := by
        intro h last
        exact Line.isLineBreak_of_mem_text_read (g :: rest) h (List.mem_of_getLast? last)
      have ending := (style.cut first (not_splitsPair_of_getLast? inside)).2
      intro l listed
      rcases List.mem_cons.mp listed with rfl | further
      · exact ⟨first, ending⟩
      · exact ih later l further

end AttributeLists
