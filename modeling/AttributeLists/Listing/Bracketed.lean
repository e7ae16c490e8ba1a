/-
# Bracketed lists

A bracketed list is a stretch of source from an opening bracket to the next
closing one, together with what trails it on the same line: spaces and tabs, and
then a line comment if one starts there. Whether it is an attribute list shows
only in its body.

A body may start with a target such as `field:`, which names what the attributes
apply to and is no part of the first entry. A doubled colon makes no target, so
that `global::` stays with the name it starts.

Taking an attribute out of a list drops every entry that applies it. A list that
loses nothing stays exactly as it is written. A list that keeps some entry is
written anew: its target, the entries that are left without the blanks around
them, and one comma and space between them. A list that keeps none goes away with
its trailing blanks, and its comment stays.
-/

import AttributeLists.Listing.Commas
import AttributeLists.Listing.Entry

namespace AttributeLists

/-- A bracketed stretch of source and what trails it on its line. -/
structure Bracketed where
  /-- What stands between the brackets. -/
  body : Text
  /-- The spaces and tabs after the closing bracket. -/
  space : Text
  /-- The line comment after them, from its slashes on; empty if there is none. -/
  comment : Text
  deriving DecidableEq

/-- What becomes of a stretch of source: its new text and the number of entries
that were taken out of it. -/
structure Pruned where
  text : Text
  removed : Nat
  deriving DecidableEq

namespace Bracketed

/-- The list as it is written. -/
def source (b : Bracketed) : Text :=
  .char '[' :: b.body ++ .char ']' :: b.space ++ b.comment

/-- The target at the front of a body, and the entries after its colon. -/
def readTarget (body : Text) : Option (Text × Text) :=
  match Qualified.readIdentifier (Text.trimStart body) with
  | none => none
  | some (target, rest) =>
      match Text.trimStart rest with
      | .char ':' :: .char ':' :: _ => none
      | .char ':' :: entries => some (target, entries)
      | _ => none

/-- The target of the list. -/
def target? (b : Bracketed) : Option Text :=
  (readTarget b.body).map (·.1)

/-- The part of the body that holds the entries. -/
def listing (b : Bracketed) : Text :=
  match readTarget b.body with
  | some (_, entries) => entries
  | none => b.body

/-- The entries of the list, untrimmed, if its body is well formed. -/
def entries? (b : Bracketed) : Option (List Entry) :=
  splitEntries b.listing

/-- The target with its colon, as it is written in front of the entries. -/
def targetText : Option Text → Text
  | some target => target ++ Text.ofString ": "
  | none => []

/-- The list written anew with trimmed entries in place of its own. -/
def withEntries (b : Bracketed) : List Text → Text
  | [] => b.comment
  | entries =>
      source { b with
        body := targetText b.target? ++ List.intercalate (Text.ofString ", ") entries }

/-- The entries that are left when an attribute is taken out: trimmed, and without
those that are blank. -/
def remaining (wanted : Text) (entries : List Entry) : List Text :=
  ((entries.filter fun e => !e.applies wanted).map Text.trim).filter (!·.isEmpty)

/-- Take an attribute out of the list. -/
def prune (wanted : Text) (b : Bracketed) : Pruned :=
  match b.entries? with
  | none => ⟨b.source, 0⟩
  | some entries =>
      let removed := entries.countP (Entry.applies wanted)
      if removed = 0 then ⟨b.source, 0⟩
      else ⟨b.withEntries (remaining wanted entries), removed⟩

end Bracketed

end AttributeLists
