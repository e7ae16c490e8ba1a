/-
# Entries

An entry is what stands between two commas of an attribute list. Its name is the
qualified name it starts with, provided that nothing follows but arguments: one
stretch from an opening parenthesis to a closing one that ends the entry, blanks
aside. What stands between those parentheses is not looked at here, and an entry
of any other form has no name.

An entry is an application of an attribute when the short names agree.
-/

import AttributeLists.Name.Qualified
import AttributeLists.Name.Short

namespace AttributeLists

/-- The text of one entry, blanks included. -/
abbrev Entry := Text

namespace Entry

/-- Whether a text that follows a name holds nothing, or arguments in
parentheses, between blanks. -/
def isArguments (t : Text) : Bool :=
  let inner := t.trim
  inner.isEmpty ||
    inner.head? == some (.char '(') && inner.getLast? == some (.char ')')

/-- The name of an entry as it is written, blanks around its dots included. -/
def name? (e : Entry) : Option Text :=
  match Qualified.readName (Text.trimStart e) with
  | some (name, rest) => if isArguments rest then some name else none
  | none => none

/-- Whether an entry applies the attribute of a name, however either is written. -/
def applies (wanted : Text) (e : Entry) : Bool :=
  match e.name? with
  | some name => shortName name == shortName wanted
  | none => false

end Entry

end AttributeLists
