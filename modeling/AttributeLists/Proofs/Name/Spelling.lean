/-
# How qualified names are spelled

`Spelling` says part by part what a qualified name is: perhaps the mark of the outermost
scope, an identifier, and then segments of a dot, the blanks around it and an identifier.
The reader of names takes a spelling off the front of a text wherever neither an
identifier nor the name can go on behind it, and no text is spelled in two ways.
-/

import AttributeLists.Proofs.Name.Identifier
import AttributeLists.Proofs.Text.Trim

namespace AttributeLists.Qualified

/-- A dot with the blanks on its two sides, and the identifier behind them. -/
@[ext]
structure Segment where
  before : Text
  after : Text
  identifier : Text
  before_blank : before.isBlank = true
  after_blank : after.isBlank = true
  spelled : IsIdentifier identifier

/-- The segment as it is written. -/
def Segment.text (s : Segment) : Text :=
  s.before ++ .char '.' :: (s.after ++ s.identifier)

/-- The parts of a qualified name. -/
@[ext]
structure Spelling where
  /-- The name starts with the mark of the outermost scope. -/
  marked : Bool
  first : Text
  more : List Segment
  spelled : IsIdentifier first

namespace Spelling

/-- The identifiers of the name and what stands between them. -/
def unmarked (n : Spelling) : Text :=
  n.first ++ n.more.flatMap Segment.text

/-- The name as it is written. -/
def text (n : Spelling) : Text :=
  (if n.marked then globalMark else []) ++ n.unmarked

/-- The last identifier of the name. -/
def last (n : Spelling) : Text :=
  (n.more.getLast?.map Segment.identifier).getD n.first

end Spelling

/-- No name goes on into the text, and no colon follows a name in front of it. -/
structure Stops (rest : Text) : Prop where
  unword : ∀ g ∈ rest.head?, g.isWord = false
  undotted : ∀ g ∈ rest.trimStart.head?, g ≠ .char '.'
  uncoloned : ∀ g ∈ rest.trimStart.head?, g ≠ .char ':'

theorem stops_nil : Stops [] :=
  ⟨by simp, by simp [Text.trimStart], by simp [Text.trimStart]⟩

namespace Segment

variable (s : Segment)

theorem trimStart_text_append (rest : Text) :
    Text.trimStart (s.text ++ rest) = .char '.' :: (s.after ++ (s.identifier ++ rest)) := by
  rw [text, List.append_assoc, Text.trimStart_append_of_isBlank s.before_blank, List.cons_append,
    List.append_assoc]
  exact Text.trimStart_eq_self (by simp; rfl)

theorem takeWhile_text_append (rest : Text) :
    (s.text ++ rest).takeWhile Glyph.isBlank = s.before := by
  rw [text, List.append_assoc, List.cons_append]
  exact Text.takeWhile_append_of_head? (Text.isBlank_iff.mp s.before_blank) (by simp; rfl)

theorem head?_text_append_isWord (rest : Text) :
    ∀ g ∈ (s.text ++ rest).head?, g.isWord = false := by
  rw [text, List.append_assoc]
  apply Text.head?_append_isWord s.before_blank
  intro g first
  obtain rfl : .char '.' = g := by simpa using first
  decide

variable {s}

/-- The reader of segments takes off a segment whose identifier does not go on. -/
theorem readSegment_text_append {rest : Text} (unword : ∀ g ∈ rest.head?, g.isWord = false) :
    readSegment (s.text ++ rest) = some (s.text, rest) := by
  have read : readIdentifier (s.identifier ++ rest) = some (s.identifier, rest) :=
    readIdentifier_eq_some_iff.mpr ⟨rfl, s.spelled, unword⟩
  have shows := s.spelled.head?_isBlank rest
  have blank := Text.isBlank_iff.mp s.after_blank
  have trimmed := Text.trimStart_append_of_isBlank s.after_blank (s.identifier ++ rest)
  simp only [readSegment, trimStart_text_append, takeWhile_text_append,
    Text.takeWhile_append_of_head? blank shows, trimmed, Text.trimStart_eq_self shows, read,
    Option.map_some]
  rfl

theorem exists_of_readSegment {t segment rest : Text}
    (read : readSegment t = some (segment, rest)) : ∃ s : Segment, s.text = segment := by
  unfold readSegment at read
  split at read
  · rename_i dotted front
    simp only [Option.map_eq_some_iff, Prod.mk.injEq, Prod.exists] at read
    obtain ⟨identifier, more, found, rfl, -⟩ := read
    obtain ⟨-, spelled, -⟩ := readIdentifier_eq_some_iff.mp found
    exact ⟨⟨t.takeWhile Glyph.isBlank, dotted.takeWhile Glyph.isBlank, identifier,
      Text.isBlank_iff.mpr (Text.mem_takeWhile_eq_true t),
      Text.isBlank_iff.mpr (Text.mem_takeWhile_eq_true dotted), spelled⟩, rfl⟩
  · contradiction

/-- Where the identifiers of two segments do not go on, the texts tell the segments. -/
theorem eq_of_text_append_eq {one other : Segment} {t u : Text}
    (same : one.text ++ t = other.text ++ u) (first : ∀ g ∈ t.head?, g.isWord = false)
    (second : ∀ g ∈ u.head?, g.isWord = false) : one = other ∧ t = u := by
  have before : one.before = other.before := by
    rw [← one.takeWhile_text_append t, same, other.takeWhile_text_append]
  have dotted : one.after ++ (one.identifier ++ t) = other.after ++ (other.identifier ++ u) := by
    have trimmed := congrArg Text.trimStart same
    rw [trimStart_text_append, trimStart_text_append] at trimmed
    exact (List.cons.inj trimmed).2
  have after : one.after = other.after := by
    have runs := congrArg (List.takeWhile Glyph.isBlank) dotted
    rwa [Text.takeWhile_append_of_head? (Text.isBlank_iff.mp one.after_blank)
        (one.spelled.head?_isBlank t),
      Text.takeWhile_append_of_head? (Text.isBlank_iff.mp other.after_blank)
        (other.spelled.head?_isBlank u)] at runs
  rw [after, List.append_cancel_left_eq] at dotted
  have read := readIdentifier_eq_some_iff.mpr ⟨rfl, one.spelled, first⟩
  rw [dotted, readIdentifier_eq_some_iff.mpr ⟨rfl, other.spelled, second⟩] at read
  obtain ⟨identifier, rest⟩ := Prod.mk.inj (Option.some.inj read)
  exact ⟨Segment.ext before after identifier.symm, rest.symm⟩

end Segment

theorem head?_flatMap_append_isWord (segments : List Segment) {rest : Text}
    (unword : ∀ g ∈ rest.head?, g.isWord = false) :
    ∀ g ∈ (segments.flatMap Segment.text ++ rest).head?, g.isWord = false := by
  cases segments with
  | nil => exact unword
  | cons s segments =>
      rw [List.flatMap_cons, List.append_assoc]
      exact s.head?_text_append_isWord _

/-- The reader takes off all segments in front of a text that no name goes on into. -/
theorem readSegments_flatMap_append (segments : List Segment) {rest : Text} (stops : Stops rest) :
    readSegments (segments.flatMap Segment.text ++ rest) =
      (segments.flatMap Segment.text, rest) := by
  induction segments with
  | nil =>
      apply readSegments_of_none
      unfold readSegment
      split
      · rename_i dotted front
        rw [List.flatMap_nil, List.nil_append] at front
        exact absurd rfl (stops.undotted (.char '.') (by rw [front]; rfl))
      · rfl
  | cons s segments ih =>
      have read := s.readSegment_text_append (head?_flatMap_append_isWord segments stops.unword)
      rw [List.flatMap_cons, List.append_assoc, readSegments_of_some read, ih]

theorem exists_flatMap_eq_readSegments (t : Text) :
    ∃ segments : List Segment, segments.flatMap Segment.text = (readSegments t).1 := by
  fun_induction readSegments t with
  | case1 t stop => exact ⟨[], rfl⟩
  | case2 t segment rest found segments after read ih =>
      obtain ⟨s, rfl⟩ := Segment.exists_of_readSegment found
      obtain ⟨later, written⟩ := ih
      rw [read] at written
      exact ⟨s :: later, by rw [List.flatMap_cons, written]⟩

theorem flatMap_segment_injective :
    Function.Injective fun segments : List Segment => segments.flatMap Segment.text := by
  have nonempty (s : Segment) (t : Text) : s.text ++ t ≠ [] := by simp [Segment.text]
  intro segments others same
  dsimp only at same
  induction segments generalizing others with
  | nil =>
      cases others with
      | nil => rfl
      | cons other others =>
          rw [List.flatMap_cons] at same
          exact absurd same.symm (nonempty other _)
  | cons s segments ih =>
      cases others with
      | nil =>
          rw [List.flatMap_cons] at same
          exact absurd same (nonempty s _)
      | cons other others =>
          have unword (more : List Segment) :
              ∀ g ∈ (more.flatMap Segment.text).head?, g.isWord = false := by
            simpa using head?_flatMap_append_isWord more stops_nil.unword
          rw [List.flatMap_cons, List.flatMap_cons] at same
          obtain ⟨rfl, rest⟩ :=
            Segment.eq_of_text_append_eq same (unword segments) (unword others)
          rw [ih rest]

/-- The mark reads as an identifier in front of two colons. -/
theorem readIdentifier_globalMark_append (rest : Text) :
    readIdentifier (globalMark ++ rest) =
      some (Text.ofString "global", Text.ofString "::" ++ rest) := rfl

namespace Spelling

variable {n m : Spelling} {rest : Text}

theorem readIdentifier_unmarked_append (n : Spelling)
    (unword : ∀ g ∈ rest.head?, g.isWord = false) :
    readIdentifier (n.unmarked ++ rest) =
      some (n.first, n.more.flatMap Segment.text ++ rest) :=
  readIdentifier_eq_some_iff.mpr
    ⟨List.append_assoc _ _ _, n.spelled, head?_flatMap_append_isWord n.more unword⟩

/-- No colon follows the first identifier of a name. -/
theorem head?_trimStart_more_append (n : Spelling) (stops : Stops rest) :
    ∀ g ∈ (Text.trimStart (n.more.flatMap Segment.text ++ rest)).head?, g ≠ .char ':' := by
  cases n.more with
  | nil => exact stops.uncoloned
  | cons s segments =>
      rw [List.flatMap_cons, List.append_assoc, Segment.trimStart_text_append]
      simp

/-- A name without the mark is not mistaken for one that has it. -/
theorem not_globalMark_prefix (n : Spelling) (stops : Stops rest) :
    ¬ globalMark <+: n.unmarked ++ rest := by
  rintro ⟨after, whole⟩
  have read := n.readIdentifier_unmarked_append stops.unword
  rw [← whole, readIdentifier_globalMark_append] at read
  obtain ⟨-, colons⟩ := Prod.mk.inj (Option.some.inj read)
  have uncoloned := n.head?_trimStart_more_append stops
  rw [← colons] at uncoloned
  exact uncoloned (.char ':') rfl rfl

/-- A name is read where no name goes on behind it. -/
theorem readName_text_append (n : Spelling) (stops : Stops rest) :
    readName (n.text ++ rest) = some (n.text, rest) := by
  have found := n.readIdentifier_unmarked_append stops.unword
  have segments := readSegments_flatMap_append n.more stops
  rw [readName_eq_some_iff]
  cases marked : n.marked with
  | true =>
      refine ⟨globalMark, n.unmarked ++ rest, _, _, .inl ⟨rfl, ?_⟩, found, ?_, ?_⟩
      · simp [text, marked]
      · simp [text, marked, unmarked, segments]
      · rw [segments]
  | false =>
      refine ⟨[], n.unmarked ++ rest, _, _, .inr ⟨rfl, ?_, ?_⟩, found, ?_, ?_⟩
      · simp [text, marked]
      · simpa [text, marked] using n.not_globalMark_prefix stops
      · simp [text, marked, unmarked, segments]
      · rw [segments]

theorem exists_of_readName {t name : Text} (read : readName t = some (name, rest)) :
    ∃ n : Spelling, n.text = name := by
  obtain ⟨mark, unmarked, identifier, more, marked, found, rfl, -⟩ := readName_eq_some_iff.mp read
  obtain ⟨-, spelled, -⟩ := readIdentifier_eq_some_iff.mp found
  obtain ⟨segments, written⟩ := exists_flatMap_eq_readSegments more
  rcases marked with ⟨rfl, -⟩ | ⟨rfl, -, -⟩
  · exact ⟨⟨true, identifier, segments, spelled⟩, by simp [text, Spelling.unmarked, written]⟩
  · exact ⟨⟨false, identifier, segments, spelled⟩, by simp [text, Spelling.unmarked, written]⟩

/-- A name is spelled in one way only. -/
theorem text_injective : Function.Injective text := by
  intro n m same
  have unmixed {one other : Spelling} (marked : one.marked = true) (bare : other.marked = false) :
      one.text ≠ other.text := by
    intro mixed
    apply other.not_globalMark_prefix stops_nil
    refine ⟨one.unmarked, ?_⟩
    simpa [text, marked, bare] using mixed
  have marks : n.marked = m.marked := by
    cases first : n.marked with
    | true =>
        cases second : m.marked with
        | true => rfl
        | false => exact absurd same (unmixed first second)
    | false =>
        cases second : m.marked with
        | true => exact absurd same.symm (unmixed second first)
        | false => rfl
  rw [text, text, marks, List.append_cancel_left_eq] at same
  have read := n.readIdentifier_unmarked_append stops_nil.unword
  rw [same, m.readIdentifier_unmarked_append stops_nil.unword] at read
  obtain ⟨first, more⟩ := Prod.mk.inj (Option.some.inj read)
  rw [List.append_nil, List.append_nil] at more
  exact Spelling.ext marks first.symm (flatMap_segment_injective more.symm)

/-- A name starts like an identifier. -/
theorem head?_text_append (n : Spelling) (rest : Text) :
    ∀ g ∈ (n.text ++ rest).head?, g.startsIdentifier = true := by
  obtain ⟨first, more, spelled, starts, -⟩ := n.spelled
  cases marked : n.marked with
  | true =>
      intro g front
      obtain rfl : .char 'g' = g := by simpa [text, marked, globalMark, Text.ofString] using front
      decide
  | false => simpa [text, marked, unmarked, spelled] using starts

theorem head?_text_append_isBlank (n : Spelling) (rest : Text) :
    ∀ g ∈ (n.text ++ rest).head?, g.isBlank = false := by
  intro g first
  have starts := n.head?_text_append rest g first
  rw [← Bool.not_eq_true]
  intro blank
  rw [Glyph.startsIdentifier_of_isBlank blank] at starts
  contradiction

/-- A name holds word characters, blanks, dots and colons only. -/
theorem not_mem_text (n : Spelling) {c : Char} (shows : (Glyph.char c).isBlank = false)
    (unstarting : (Glyph.char c).startsIdentifier = false)
    (unword : (Glyph.char c).isWord = false) (undotted : c ≠ '.') (uncoloned : c ≠ ':') :
    .char c ∉ n.text := by
  have unspelled {t : Text} (spelled : IsIdentifier t) : .char c ∉ t :=
    fun inside => spelled.ne_char unstarting unword _ inside rfl
  have unmarked : .char c ∉ globalMark := by
    have whole : globalMark = Text.ofString "global" ++ Text.ofString "::" := rfl
    have global : IsIdentifier (Text.ofString "global") := ⟨_, _, rfl, by decide, by decide⟩
    rw [whole, List.mem_append, not_or]
    exact ⟨unspelled global, by simpa [Text.ofString] using uncoloned⟩
  rw [text, Spelling.unmarked]
  simp only [List.mem_append, List.mem_flatMap, Segment.text, List.mem_cons, Glyph.char.injEq,
    not_or, not_exists, not_and]
  refine ⟨?_, unspelled n.spelled, fun s _ => ?_⟩
  · cases n.marked with
    | true => exact unmarked
    | false => simp
  · exact ⟨Text.char_not_mem_of_isBlank s.before_blank shows, undotted,
      Text.char_not_mem_of_isBlank s.after_blank shows, unspelled s.spelled⟩

end Spelling

end AttributeLists.Qualified
