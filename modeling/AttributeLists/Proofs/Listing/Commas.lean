/-
# Dividing a list body

`FallsInto` says what dividing a text does to each of its glyphs, and what holds of the
pieces is shown by induction on it.

A stretch of a body is whole, read from a state, if the reading ends with everything
closed and no comma divides it. Pieces are whole, blanks at either end do not change
that, and a comma after a whole stretch divides. So whole texts can be put together
with commas and blanks as one likes and are found again by the next division.
-/

import AttributeLists.Listing.Commas
import AttributeLists.Proofs.Text.Shown
import AttributeLists.Proofs.Text.Trim

namespace AttributeLists

namespace Commas

namespace State

theorem stepOutside_of_isBlank {g : Glyph} (blank : g.isBlank = true) (depth : Nat)
    (lead : Lead) : stepOutside depth lead g = some ⟨depth, .outside .none⟩ := by
  have differs (c : Char) (shows : (Glyph.char c).isBlank = false) : g ≠ .char c :=
    Glyph.ne_of_isBlank blank shows
  simp [stepOutside, Lead.next, differs '"' rfl, differs '\'' rfl, differs '[' rfl,
    differs '(' rfl, differs ')' rfl, differs '@' rfl, differs '$' rfl]

/-- The state after a blank, which is read in every state. -/
def afterBlank (s : State) : State :=
  match s.mode with
  | .outside _ | .verbatimQuote => ⟨s.depth, .outside .none⟩
  | .escaped quote => ⟨s.depth, .regular quote⟩
  | .regular _ | .verbatim => s

theorem step_of_isBlank {g : Glyph} (blank : g.isBlank = true) (s : State) :
    s.step g = some s.afterBlank := by
  have differs (c : Char) (shows : (Glyph.char c).isBlank = false) : g ≠ .char c :=
    Glyph.ne_of_isBlank blank shows
  rcases s with ⟨depth, mode⟩
  cases mode with
  | outside lead => exact stepOutside_of_isBlank blank depth lead
  | regular quote =>
      have unquoted : g ≠ quote.glyph := by
        cases quote with
        | single => exact differs '\'' rfl
        | double => exact differs '"' rfl
      simp [step, afterBlank, differs '\\' rfl, unquoted]
  | escaped quote => rfl
  | verbatim => simp [step, afterBlank, differs '"' rfl]
  | verbatimQuote =>
      simp [step, afterBlank, differs '"' rfl, stepOutside_of_isBlank blank]

@[simp]
theorem isClosed_afterBlank (s : State) : s.afterBlank.isClosed = s.isClosed := by
  rcases s with ⟨depth, mode⟩
  cases mode <;> cases depth <;> rfl

@[simp]
theorem afterBlank_afterBlank (s : State) : s.afterBlank.afterBlank = s.afterBlank := by
  rcases s with ⟨depth, mode⟩
  cases mode <;> rfl

@[simp]
theorem afterBlank_start : afterBlank start = start := rfl

end State

/-- Read on from a state, a text falls into pieces: nothing is open at its end, a comma divides
where nothing is open, and every other glyph belongs to the piece that it stands in. -/
inductive FallsInto : State → Text → List Text → Prop
  | ends {s : State} (closed : s.isClosed = true) : FallsInto s [] [[]]
  | comma {s : State} {t : Text} {pieces : List Text} (closed : s.isClosed = true)
      (later : FallsInto .start t pieces) : FallsInto s (.char ',' :: t) ([] :: pieces)
  | glyph {s next : State} {g : Glyph} {t piece : Text} {pieces : List Text}
      (undivided : ¬ (g = .char ',' ∧ s.isClosed = true)) (stepped : s.step g = some next)
      (later : FallsInto next t (piece :: pieces)) :
      FallsInto s (g :: t) ((g :: piece) :: pieces)

theorem FallsInto.ne_nil {s : State} {t : Text} {pieces : List Text}
    (falls : FallsInto s t pieces) : pieces ≠ [] := by
  rintro rfl
  cases falls

theorem piecesFrom_cons_of_comma {s : State} (closed : s.isClosed = true) (t : Text) :
    piecesFrom s (.char ',' :: t) = (splitEntries t).map ([] :: ·) :=
  if_pos ⟨rfl, closed⟩

theorem piecesFrom_cons_of_step {s next : State} {g : Glyph}
    (undivided : ¬ (g = .char ',' ∧ s.isClosed = true)) (stepped : s.step g = some next)
    (t : Text) : piecesFrom s (g :: t) = (piecesFrom next t).map (extendFirst g) := by
  simp only [piecesFrom, if_neg undivided, stepped]

theorem piecesFrom_eq_some_iff {s : State} {t : Text} {pieces : List Text} :
    piecesFrom s t = some pieces ↔ FallsInto s t pieces := by
  constructor
  · intro divided
    induction t generalizing s pieces with
    | nil =>
        rw [piecesFrom] at divided
        split at divided
        · rename_i closed
          obtain rfl := Option.some.inj divided
          exact .ends closed
        · contradiction
    | cons g t ih =>
        by_cases divides : g = .char ',' ∧ s.isClosed = true
        · obtain ⟨rfl, closed⟩ := divides
          rw [piecesFrom_cons_of_comma closed] at divided
          obtain ⟨more, later, rfl⟩ := Option.map_eq_some_iff.mp divided
          exact .comma closed (ih later)
        · cases stepped : s.step g with
          | none =>
              rw [piecesFrom, if_neg divides, stepped] at divided
              contradiction
          | some next =>
              rw [piecesFrom_cons_of_step divides stepped] at divided
              obtain ⟨more, later, rfl⟩ := Option.map_eq_some_iff.mp divided
              cases more with
              | nil => cases ih later
              | cons piece more => exact .glyph divides stepped (ih later)
  · intro falls
    induction falls with
    | ends closed => exact if_pos closed
    | comma closed later ih =>
        rw [piecesFrom_cons_of_comma closed, splitEntries, ih]
        rfl
    | glyph undivided stepped later ih =>
        rw [piecesFrom_cons_of_step undivided stepped, ih]
        rfl

/-- A blank divides nothing and is put in front of the piece it stands in. -/
theorem piecesFrom_cons_of_isBlank {g : Glyph} (blank : g.isBlank = true) (s : State)
    (t : Text) : piecesFrom s (g :: t) = (piecesFrom s.afterBlank t).map (extendFirst g) := by
  have unequal : g ≠ .char ',' := Glyph.ne_of_isBlank blank rfl
  simp [piecesFrom, unequal, State.step_of_isBlank blank]

theorem piecesFrom_of_isBlank {t : Text} (blank : t.isBlank = true) (s : State) :
    piecesFrom s t = if s.isClosed then some [t] else none := by
  induction t generalizing s with
  | nil => rfl
  | cons g t ih =>
      rw [Text.isBlank_cons_iff] at blank
      rw [piecesFrom_cons_of_isBlank blank.1, ih blank.2, State.isClosed_afterBlank]
      split <;> rfl

/-- A run of blanks acts on the reading like a single one. -/
theorem piecesFrom_append_of_isBlank {run : Text} (nonempty : run ≠ [])
    (blank : run.isBlank = true) (s : State) (t : Text) :
    piecesFrom s (run ++ t) = (piecesFrom s.afterBlank t).map (run.foldr extendFirst ·) := by
  induction run generalizing s with
  | nil => contradiction
  | cons g run ih =>
      rw [Text.isBlank_cons_iff] at blank
      rw [List.cons_append, piecesFrom_cons_of_isBlank blank.1]
      by_cases single : run = []
      · subst single
        rfl
      · rw [ih single blank.2, State.afterBlank_afterBlank, Option.map_map]
        rfl

theorem foldr_extendFirst (run piece : Text) (pieces : List Text) :
    run.foldr extendFirst (piece :: pieces) = (run ++ piece) :: pieces := by
  induction run with
  | nil => rfl
  | cons g run ih => rw [List.foldr_cons, ih, extendFirst, List.cons_append]

/-- Read from a state, the text closes all that is open and holds no dividing comma. -/
def Whole (s : State) (t : Text) : Prop :=
  piecesFrom s t = some [t]

theorem whole_nil {s : State} : Whole s [] ↔ s.isClosed = true := by
  rw [Whole, piecesFrom]
  split <;> simp_all

theorem whole_cons {s : State} {g : Glyph} {t : Text} :
    Whole s (g :: t) ↔
      ¬ (g = .char ',' ∧ s.isClosed = true) ∧ ∃ next, s.step g = some next ∧ Whole next t := by
  simp only [Whole, piecesFrom_eq_some_iff]
  constructor
  · intro falls
    cases falls with
    | glyph undivided stepped later => exact ⟨undivided, _, stepped, later⟩
  · rintro ⟨undivided, next, stepped, later⟩
    exact .glyph undivided stepped later

theorem whole_of_isBlank {s : State} {t : Text} (blank : t.isBlank = true) :
    Whole s t ↔ s.isClosed = true := by
  rw [Whole, piecesFrom_of_isBlank blank]
  split <;> simp_all

/-- Blanks at the end of a text do not decide whether it is whole. -/
theorem whole_append_of_isBlank {s : State} {t trail : Text} (blank : trail.isBlank = true) :
    Whole s (t ++ trail) ↔ Whole s t := by
  induction t generalizing s with
  | nil => rw [List.nil_append, whole_of_isBlank blank, whole_nil]
  | cons g t ih => simp only [List.cons_append, whole_cons, ih]

/-- The characters that the division of a body looks for. A dollar sign matters only
after an at sign. -/
def marks : List Char :=
  [',', '"', '\'', '[', '(', ')', '@']

/-- Nor does what stands in front of it, as long as it holds none of the marks. -/
theorem whole_start_append {front t : Text} (plain : ∀ c ∈ marks, .char c ∉ front) :
    Whole .start (front ++ t) ↔ Whole .start t := by
  induction front with
  | nil => rfl
  | cons g front ih =>
      simp only [List.mem_cons, not_or] at plain
      have differs (c : Char) (mark : c ∈ marks) : g ≠ .char c :=
        fun same => (plain c mark).1 same.symm
      have stays : State.start.step g = some .start := by
        simp [State.step, State.start, State.stepOutside, Lead.next, differs '"' (by decide),
          differs '\'' (by decide), differs '[' (by decide), differs '(' (by decide),
          differs ')' (by decide), differs '@' (by decide)]
      simp only [List.cons_append, whole_cons, differs ',' (by decide), false_and, not_false_iff,
        true_and, stays, Option.some.injEq, exists_eq_left']
      exact ih fun c mark => (plain c mark).2

theorem not_mem_of_isBlank {t : Text} (blank : t.isBlank = true) : ∀ c ∈ marks, .char c ∉ t := by
  intro c mark
  apply Text.char_not_mem_of_isBlank blank
  simp only [marks, List.mem_cons, List.not_mem_nil, or_false] at mark
  rcases mark with rfl | rfl | rfl | rfl | rfl | rfl | rfl <;> rfl

theorem whole_start_trim {t : Text} : Whole .start t.trim ↔ Whole .start t := by
  obtain ⟨lead, trail, lead_blank, trail_blank, whole⟩ := Text.exists_eq_append_trim t
  conv_rhs => rw [whole]
  rw [whole_start_append (not_mem_of_isBlank lead_blank), whole_append_of_isBlank trail_blank]

/-- Every piece of a divided text is whole. -/
theorem FallsInto.whole {s : State} {t : Text} {pieces : List Text}
    (falls : FallsInto s t pieces) :
    ∃ first more, pieces = first :: more ∧ Whole s first ∧ ∀ piece ∈ more, Whole .start piece := by
  induction falls with
  | ends closed => exact ⟨[], [], rfl, whole_nil.mpr closed, by simp⟩
  | @comma s t pieces closed later ih =>
      obtain ⟨first, more, rfl, first_whole, more_whole⟩ := ih
      exact ⟨[], _, rfl, whole_nil.mpr closed, List.forall_mem_cons.mpr ⟨first_whole, more_whole⟩⟩
  | @glyph s next g t piece pieces undivided stepped later ih =>
      obtain ⟨_, _, same, piece_whole, more_whole⟩ := ih
      obtain ⟨rfl, rfl⟩ := List.cons.inj same
      exact ⟨_, _, rfl, whole_cons.mpr ⟨undivided, next, stepped, piece_whole⟩, more_whole⟩

theorem subset_of_piecesFrom {s : State} {t : Text} {pieces : List Text}
    (divided : piecesFrom s t = some pieces) : ∀ piece ∈ pieces, piece ⊆ t := by
  rw [piecesFrom_eq_some_iff] at divided
  induction divided with
  | ends closed => simp
  | comma closed later ih =>
      refine List.forall_mem_cons.mpr ⟨List.nil_subset _, fun piece inside => ?_⟩
      exact List.subset_cons_of_subset _ (ih piece inside)
  | @glyph _ _ g _ piece _ undivided stepped later ih =>
      obtain ⟨first, more⟩ := List.forall_mem_cons.mp ih
      refine List.forall_mem_cons.mpr ⟨List.cons_subset_cons g first, fun other inside => ?_⟩
      exact List.subset_cons_of_subset g (more other inside)

/-- A comma after a text that can be divided divides, and the reading starts anew. -/
theorem piecesFrom_append_comma {s : State} {t : Text} {pieces : List Text}
    (divided : piecesFrom s t = some pieces) (rest : Text) :
    piecesFrom s (t ++ .char ',' :: rest) = (splitEntries rest).map (pieces ++ ·) := by
  rw [piecesFrom_eq_some_iff] at divided
  induction divided with
  | ends closed => exact piecesFrom_cons_of_comma closed rest
  | comma closed later ih =>
      rw [List.cons_append, piecesFrom_cons_of_comma closed, splitEntries, ih, Option.map_map]
      rfl
  | glyph undivided stepped later ih =>
      rw [List.cons_append, piecesFrom_cons_of_step undivided stepped, ih, Option.map_map]
      rfl

end Commas

open Commas

theorem whole_of_splitEntries {body : Text} {entries : List Text}
    (divided : splitEntries body = some entries) : ∀ e ∈ entries, Whole .start e := by
  obtain ⟨first, more, rfl, first_whole, more_whole⟩ :=
    (piecesFrom_eq_some_iff.mp divided).whole
  exact List.forall_mem_cons.mpr ⟨first_whole, more_whole⟩

/-- Whole texts joined by a comma and a space are the entries of the joined text, the
later ones with the space in front. -/
theorem splitEntries_intercalate {first : Text} {more : List Text}
    (whole : ∀ e ∈ first :: more, Whole .start e) :
    splitEntries (List.intercalate (Text.ofString ", ") (first :: more)) =
      some (first :: more.map (.char ' ' :: ·)) := by
  induction more generalizing first with
  | nil =>
      rw [List.intercalate_singleton]
      exact whole first List.mem_cons_self
  | cons second more ih =>
      have rest := ih fun e inside => whole e (List.mem_cons_of_mem _ inside)
      have joined : List.intercalate (Text.ofString ", ") (first :: second :: more) =
          first ++ .char ',' :: .char ' ' ::
            List.intercalate (Text.ofString ", ") (second :: more) := by
        rw [List.intercalate_cons_cons]
        simp [Text.ofString]
      have spaced : splitEntries (.char ' ' ::
          List.intercalate (Text.ofString ", ") (second :: more)) =
            some ((.char ' ' :: second) :: more.map (.char ' ' :: ·)) := by
        rw [splitEntries, piecesFrom_cons_of_isBlank rfl, State.afterBlank_start]
        rw [splitEntries] at rest
        rw [rest]
        rfl
      rw [joined, splitEntries, piecesFrom_append_comma (whole first List.mem_cons_self), spaced]
      rfl

end AttributeLists
