/-
# Lists with one application

A list that holds nothing but an application of an attribute goes away when the attribute
is taken out. The application may be written in any way that the short names allow, with
any arguments that divide on their own, and behind any target: no name is mistaken for a
target, since the colon of its mark is doubled, and in parentheses no comma divides.
-/

import AttributeLists.Proofs.Listing.Entry
import AttributeLists.Proofs.Listing.Grammar
import AttributeLists.Proofs.Listing.Renewed

namespace AttributeLists

namespace Commas

namespace State

/-- The state with one more open parenthesis. -/
def deeper (s : State) : State :=
  { s with depth := s.depth + 1 }

theorem isClosed_deeper (s : State) : s.deeper.isClosed = false := rfl

/-- A glyph does the same one level deeper. -/
theorem step_deeper {s next : State} {g : Glyph} (stepped : s.step g = some next) :
    s.deeper.step g = some next.deeper := by
  have outside {depth : Nat} {lead : Lead} (stepped : stepOutside depth lead g = some next) :
      stepOutside (depth + 1) lead g = some next.deeper := by
    rw [stepOutside_eq_some_iff] at stepped ⊢
    cases stepped with
    | regular quote opens => exact .regular quote opens
    | verbatim opens => exact .verbatim opens
    | inward => exact .inward
    | outward inside => exact .outward (congrArg (· + 1) inside)
    | plain plain => exact .plain plain
  rcases s with ⟨depth, mode⟩
  cases mode with
  | outside lead => exact outside stepped
  | regular quote =>
      simp only [step, deeper] at stepped ⊢
      split_ifs at stepped ⊢ <;> rw [← Option.some.inj stepped]
  | escaped quote => rw [← Option.some.inj stepped]; rfl
  | verbatim =>
      simp only [step, deeper] at stepped ⊢
      split_ifs at stepped ⊢ <;> rw [← Option.some.inj stepped]
  | verbatimQuote =>
      simp only [step] at stepped
      split_ifs at stepped with again
      · rw [← Option.some.inj stepped, again]
        rfl
      · simp only [step, deeper, if_neg again]
        exact outside stepped

/-- What is accepted ends one level deeper at the parenthesis that closes the level. -/
theorem Accepts.whole_deeper {s : State} {t : Text} (accepted : s.Accepts t) :
    Whole s.deeper (t ++ [.char ')']) := by
  induction t generalizing s with
  | nil =>
      have ended : s.deeper.step (.char ')') = some ⟨0, .outside .none⟩ := by
        rcases s with ⟨depth, mode⟩
        rw [accepts_nil] at accepted
        cases depth with
        | zero => cases mode <;> first | rfl | contradiction
        | succ depth => cases mode <;> contradiction
      exact whole_cons.mpr ⟨by simp, _, ended, whole_nil.mpr rfl⟩
  | cons g t ih =>
      obtain ⟨next, stepped, later⟩ := accepts_cons.mp accepted
      refine whole_cons.mpr ⟨?_, next.deeper, step_deeper stepped, ih later⟩
      rw [isClosed_deeper]
      exact fun divides => Bool.false_ne_true divides.2

end State

theorem whole_parenthesized {content : Text} (accepted : State.start.Accepts content) :
    Whole .start (parenthesized content) :=
  whole_cons.mpr ⟨by simp, State.start.deeper, rfl, accepted.whole_deeper⟩

end Commas

open Qualified Commas

namespace Entry.Spelling

variable {s : Entry.Spelling}

/-- The arguments divide on their own and close no list. -/
def Listable (s : Entry.Spelling) : Prop :=
  ∀ a ∈ s.arguments, splitEntries a.content ≠ none ∧ .char ']' ∉ a.content

theorem text_eq_append_arguments (s : Entry.Spelling) :
    s.text = s.lead ++ (s.name.text ++ s.space) ++ s.arguments.elim [] Arguments.text := by
  simp [text, rest]

/-- The marks in an entry are in its arguments. -/
theorem not_mem_front (s : Entry.Spelling) {c : Char} (shows : (Glyph.char c).isBlank = false)
    (unstarting : (Glyph.char c).startsIdentifier = false)
    (unword : (Glyph.char c).isWord = false) (undotted : c ≠ '.') (uncoloned : c ≠ ':') :
    .char c ∉ s.lead ++ (s.name.text ++ s.space) := by
  simp only [List.mem_append, not_or]
  exact ⟨Text.char_not_mem_of_isBlank s.lead_blank shows,
    s.name.not_mem_text shows unstarting unword undotted uncoloned,
    Text.char_not_mem_of_isBlank s.space_blank shows⟩

/-- No comma divides an entry whose arguments divide on their own. -/
theorem Listable.whole_text (listable : s.Listable) : Whole .start s.text := by
  have front : ∀ c ∈ marks, .char c ∉ s.lead ++ (s.name.text ++ s.space) := by
    intro c mark
    simp only [marks, List.mem_cons, List.not_mem_nil, or_false] at mark
    rcases mark with rfl | rfl | rfl | rfl | rfl | rfl | rfl <;>
      exact s.not_mem_front (by decide) (by decide) (by decide) (by decide) (by decide)
  rw [text_eq_append_arguments, whole_start_append front]
  cases found : s.arguments with
  | none => exact whole_nil.mpr rfl
  | some a =>
      have cut : a.text = parenthesized a.content ++ a.trail := by
        simp [Arguments.text, parenthesized]
      rw [Option.elim_some, cut, whole_append_of_isBlank a.trail_blank]
      exact whole_parenthesized (Option.isSome_iff_ne_none.mpr (listable a found).1)

theorem Listable.closing_not_mem_text (listable : s.Listable) : .char ']' ∉ s.text := by
  rw [text_eq_append_arguments, List.mem_append, not_or]
  refine ⟨s.not_mem_front (by decide) (by decide) (by decide) (by decide) (by decide), ?_⟩
  cases found : s.arguments with
  | none => simp
  | some a =>
      have trail : .char ']' ∉ a.trail := Text.char_not_mem_of_isBlank a.trail_blank rfl
      simpa [Arguments.text, trail] using (listable a found).2

end Entry.Spelling

namespace Bracketed

/-- No name is mistaken for a target. -/
theorem readTarget_text (s : Entry.Spelling) : readTarget s.text = none := by
  have trimmed := s.trimStart_text
  cases marked : s.name.marked with
  | true =>
      have whole : s.name.text ++ s.rest = globalMark ++ (s.name.unmarked ++ s.rest) := by
        simp [Qualified.Spelling.text, marked]
      rw [readTarget, trimmed, whole, readIdentifier_globalMark_append]
      rfl
  | false =>
      have whole : s.name.text ++ s.rest = s.name.unmarked ++ s.rest := by
        simp [Qualified.Spelling.text, marked]
      have uncoloned := s.name.head?_trimStart_more_append s.stops_rest
      rw [readTarget, trimmed, whole,
        s.name.readIdentifier_unmarked_append s.stops_rest.unword]
      dsimp only
      split
      · rfl
      · rename_i entries single colon
        rw [colon] at uncoloned
        exact absurd rfl (uncoloned (.char ':') rfl)
      · rfl

/-- No entry starts with a second colon. -/
theorem readTarget_append_text {target : Text} (identifier : IsIdentifier target)
    (s : Entry.Spelling) :
    readTarget (target ++ .char ':' :: s.text) = some (target, s.text) := by
  refine readTarget_eq_some_iff.mpr ⟨[], [], rfl, rfl, identifier, rfl, ?_⟩
  rintro g first rfl
  have blank := Text.isBlank_iff.mp s.lead_blank
  rw [Entry.Spelling.text] at first
  cases lead : s.lead with
  | nil =>
      rw [lead, List.nil_append] at first
      exact absurd (s.name.head?_text_append s.rest _ first) (by decide)
  | cons other lead =>
      obtain rfl : other = .char ':' := by simpa [lead] using first
      exact absurd (blank (.char ':') (by simp [lead])) (by decide)

/-- A list with one entry goes away with it but for its comment. -/
theorem prune_of_sole_entry {wanted : Text} {b : Bracketed} {e : Entry}
    (divided : b.entries? = some [e]) (applied : e.applies wanted = true) :
    b.prune wanted = ⟨b.comment, 1⟩ := by
  rw [prune_of_applied divided ⟨e, List.mem_singleton_self e, applied⟩]
  simp [remaining, applied, withEntries]

end Bracketed

namespace Text

open Bracketed

/-- A text that is one list with one entry goes away with it. -/
theorem prune_of_sole_entry {name : AttributeName} {body : Text} {e : Entry}
    (closable : .char ']' ∉ body) (divided : entries? ⟨body, [], []⟩ = some [e])
    (applied : e.applies name.text = true) (collapse : Bool) :
    prune name collapse (.char '[' :: body ++ [.char ']']) = ⟨[], 1⟩ := by
  let b : Bracketed := ⟨body, [], []⟩
  have stands : b.StandsBefore [] := ⟨closable, by simp [b], by simp [b], .inl ⟨rfl, by decide⟩⟩
  have whole : .char '[' :: body ++ [.char ']'] = b.source := by simp [source, b]
  have pruned : b.prune name.text = ⟨[], 1⟩ := Bracketed.prune_of_sole_entry divided applied
  have outcome : Layout.prune name.text ⟨[([], b)], []⟩ = [([], ⟨[], 1⟩)] := by
    rw [← pruned]
    rfl
  have gone : Layout.pruned name.text ⟨[([], b)], []⟩ = [] := by
    rw [Layout.pruned, outcome]
    rfl
  rw [prune_eq, whole, ofText_source stands]
  dsimp only
  rw [gone, outcome]
  cases collapse with
  | false => rfl
  | true =>
      rw [if_pos rfl, List.sublist_nil.mp (collapse_sublist [] _)]
      rfl

section

variable {name : AttributeName} {s : Entry.Spelling} (listable : s.Listable)
  (same : shortName s.name.text = shortName name.text) (collapse : Bool)
include listable same

/-- However an application is spelled, a list of nothing else goes away. -/
theorem prune_spelled : prune name collapse (.char '[' :: s.text ++ [.char ']']) = ⟨[], 1⟩ := by
  have divided : entries? ⟨s.text, [], []⟩ = some [s.text] := by
    rw [entries?, listing, readTarget_text]
    exact listable.whole_text
  exact prune_of_sole_entry listable.closing_not_mem_text divided
    (Entry.applies_iff.mpr ⟨s, rfl, same⟩) collapse

/-- A target goes away with the only application behind it. -/
theorem prune_targeted {target : Text} (identifier : IsIdentifier target) :
    prune name collapse (.char '[' :: (target ++ .char ':' :: s.text) ++ [.char ']']) =
      ⟨[], 1⟩ := by
  have divided : entries? ⟨target ++ .char ':' :: s.text, [], []⟩ = some [s.text] := by
    rw [entries?, listing, readTarget_append_text identifier]
    exact listable.whole_text
  have closable : .char ']' ∉ target ++ .char ':' :: s.text := by
    have unclosing : .char ']' ∉ target :=
      fun inside => identifier.ne_char (c := ']') rfl (by decide) _ inside rfl
    simpa [unclosing] using listable.closing_not_mem_text
  exact prune_of_sole_entry closable divided (Entry.applies_iff.mpr ⟨s, rfl, same⟩) collapse

end

/-- A list of one application of an attribute, with or without arguments, alone or behind a
target, goes away with the attribute, whatever form of its name either of them is given in. -/
theorem prune_sole_application (wanted given : AttributeName)
    (same : shortName given.text = shortName wanted.text) {arguments target : Text}
    (closable : .char ']' ∉ arguments) (balanced : splitEntries arguments ≠ none)
    (identifier : IsIdentifier target) (collapse : Bool) :
    let called := given.text ++ parenthesized arguments
    ∀ body ∈ [given.text, called, target ++ .char ':' :: given.text,
        target ++ Text.ofString ": " ++ called],
      prune wanted collapse (.char '[' :: body ++ [.char ']']) = ⟨[], 1⟩ := by
  intro called
  obtain ⟨n, spelled, -⟩ := given.exists_spelling
  have short : shortName n.text = shortName wanted.text := spelled ▸ same
  let bare : Entry.Spelling := ⟨[], n, [], none, rfl, rfl⟩
  let full : Entry.Spelling := ⟨[], n, [], some ⟨arguments, [], rfl⟩, rfl, rfl⟩
  let spaced : Entry.Spelling := ⟨[.char ' '], n, [], some ⟨arguments, [], rfl⟩, rfl, rfl⟩
  have bare_text : bare.text = given.text := by
    simp [bare, Entry.Spelling.text, Entry.Spelling.rest, spelled]
  have full_text : full.text = called := by
    simp [full, called, Entry.Spelling.text, Entry.Spelling.rest, spelled, parenthesized,
      Entry.Arguments.text]
  have spaced_text : spaced.text = .char ' ' :: called := by
    rw [← full_text]
    rfl
  have bare_listable : bare.Listable := by simp [Entry.Spelling.Listable, bare]
  have full_listable : full.Listable := by
    simpa [Entry.Spelling.Listable, full] using ⟨balanced, closable⟩
  have spaced_listable : spaced.Listable := full_listable
  simp only [List.forall_mem_cons, List.not_mem_nil, false_implies, implies_true, and_true]
  refine ⟨?_, ?_, ?_, ?_⟩
  · exact bare_text ▸ prune_spelled bare_listable short collapse
  · exact full_text ▸ prune_spelled full_listable short collapse
  · exact bare_text ▸ prune_targeted bare_listable short collapse identifier
  · have behind := prune_targeted spaced_listable short collapse identifier
    rw [spaced_text] at behind
    simpa [Text.ofString] using behind

theorem isAttributeName_marked_T :
    isAttributeName (ofString "global::A.TAttribute") = true := by
  decide +kernel

/-- The arguments hold commas, a closing parenthesis and an opening bracket in literals. -/
theorem prune_sole_application_with_literals :
    let wanted : AttributeName := ⟨ofString "T", isAttributeName_singleton rfl⟩
    let given : AttributeName := ⟨ofString "global::A.TAttribute", isAttributeName_marked_T⟩
    let arguments := ofString "f(1, \")\"), '['"
    let target := ofString "field"
    let called := given.text ++ parenthesized arguments
    shortName given.text = shortName wanted.text ∧ .char ']' ∉ arguments ∧
      splitEntries arguments ≠ none ∧ IsIdentifier target ∧
      ∀ body ∈ [given.text, called, target ++ .char ':' :: given.text,
          target ++ Text.ofString ": " ++ called],
        prune wanted true (.char '[' :: body ++ [.char ']']) = ⟨[], 1⟩ := by
  intro wanted given arguments target called
  have same : shortName given.text = shortName wanted.text := by decide +kernel
  have closable : .char ']' ∉ arguments := by decide
  have balanced : splitEntries arguments ≠ none := by decide +kernel
  have identifier : IsIdentifier target := ⟨_, _, rfl, by decide, by decide⟩
  exact ⟨same, closable, balanced, identifier,
    prune_sole_application wanted given same closable balanced identifier true⟩

end Text

end AttributeLists
