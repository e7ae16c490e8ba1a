/-
# Character classes as tables

A class of characters is a table of code point ranges, in increasing order and
with both ends included. Membership walks the table and stops at the first range
that does not lie wholly below the character.
-/

namespace AttributeLists

/-- Inclusive ranges of code points, in increasing order. -/
abbrev CharClass := List (Nat × Nat)

namespace CharClass

/-- Whether a code point lies in one of the ranges. Because the ranges increase,
the first one that does not end below the code point settles the question. -/
def containsCode (code : Nat) : CharClass → Bool
  | [] => false
  | (first, last) :: rest =>
      if last < code then containsCode code rest else first ≤ code

/-- Whether a character is in the class. -/
def contains (cls : CharClass) (c : Char) : Bool :=
  cls.containsCode c.toNat

end CharClass

end AttributeLists
