/-
# Entries between commas

A list body is divided into entries at its commas, except at those inside
parentheses or quoted literals. The division reads the body once from left to
right and keeps the number of open parentheses and the kind of literal it is in.

Two kinds of literal differ in how they end. A regular literal is opened by either
quote and a backslash takes the glyph after it along. A verbatim literal is opened
by a double quote right after `@` or `@$`; a backslash is ordinary in it and a
doubled quote stands for one.

A body has no entries at all when a parenthesis or a literal does not close, when
a parenthesis closes that was not opened, or when an opening bracket stands
outside a literal.
-/

import AttributeLists.Text.Glyph

namespace AttributeLists

/-- The two quotes that open a literal. -/
inductive QuoteMark
  | single
  | double
  deriving DecidableEq

namespace QuoteMark

/-- The glyph of a quote. -/
def glyph : QuoteMark → Glyph
  | single => .char '\''
  | double => .char '"'

end QuoteMark

namespace Commas

/-- What has just been read outside literals, as far as it decides whether a
double quote opens a verbatim literal. -/
inductive Lead
  | none
  /-- The last glyph was `@`. -/
  | atSign
  /-- The last two glyphs were `@$`. -/
  | atSignDollar
  deriving DecidableEq

namespace Lead

/-- The lead after one more glyph. -/
def next (lead : Lead) (g : Glyph) : Lead :=
  if g = .char '@' then .atSign
  else if g = .char '$' ∧ lead = .atSign then .atSignDollar
  else .none

end Lead

/-- Where the reading stands with respect to literals. -/
inductive Mode
  /-- Outside literals. -/
  | outside (lead : Lead)
  /-- In a regular literal that `quote` closes. -/
  | regular (quote : QuoteMark)
  /-- In a regular literal, right after a backslash. -/
  | escaped (quote : QuoteMark)
  /-- In a verbatim literal. -/
  | verbatim
  /-- After a quote in a verbatim literal: it has ended unless another quote
  follows. -/
  | verbatimQuote
  deriving DecidableEq

/-- The state of the reading between two glyphs. -/
structure State where
  /-- The number of open parentheses. -/
  depth : Nat
  /-- The standing with respect to literals. -/
  mode : Mode
  deriving DecidableEq

namespace State

/-- Before the first glyph, and after each comma that divides. -/
def start : State :=
  ⟨0, .outside .none⟩

/-- Everything opened so far has closed. -/
def isClosed (s : State) : Bool :=
  match s with
  | ⟨0, .outside _⟩ | ⟨0, .verbatimQuote⟩ => true
  | _ => false

/-- The state after a glyph outside literals. -/
def stepOutside (depth : Nat) (lead : Lead) (g : Glyph) : Option State :=
  if g = .char '"' then
    if lead = .none then some ⟨depth, .regular .double⟩ else some ⟨depth, .verbatim⟩
  else if g = .char '\'' then some ⟨depth, .regular .single⟩
  else if g = .char '[' then none
  else if g = .char '(' then some ⟨depth + 1, .outside .none⟩
  else if g = .char ')' then
    match depth with
    | 0 => none
    | depth + 1 => some ⟨depth, .outside .none⟩
  else some ⟨depth, .outside (lead.next g)⟩

/-- The state after one more glyph, unless the body cannot be divided. -/
def step (s : State) (g : Glyph) : Option State :=
  match s.mode with
  | .outside lead => stepOutside s.depth lead g
  | .regular quote =>
      if g = .char '\\' then some ⟨s.depth, .escaped quote⟩
      else if g = quote.glyph then some ⟨s.depth, .outside .none⟩
      else some s
  | .escaped quote => some ⟨s.depth, .regular quote⟩
  | .verbatim => if g = .char '"' then some ⟨s.depth, .verbatimQuote⟩ else some s
  | .verbatimQuote =>
      if g = .char '"' then some ⟨s.depth, .verbatim⟩ else stepOutside s.depth .none g

end State

/-- Put a glyph in front of the first piece. -/
def extendFirst (g : Glyph) : List Text → List Text
  | [] => [[g]]
  | piece :: pieces => (g :: piece) :: pieces

/-- The pieces of a text that is read on from a state. A comma divides exactly
when everything opened before it has closed. -/
def piecesFrom (s : State) : Text → Option (List Text)
  | [] => if s.isClosed then some [[]] else none
  | g :: rest =>
      if g = .char ',' ∧ s.isClosed then
        (piecesFrom .start rest).map ([] :: ·)
      else
        match s.step g with
        | some next => (piecesFrom next rest).map (extendFirst g)
        | none => none

end Commas

/-- The pieces of a list body between its dividing commas, untrimmed, or nothing
if the body is not well formed. -/
def splitEntries (body : Text) : Option (List Text) :=
  Commas.piecesFrom .start body

end AttributeLists
