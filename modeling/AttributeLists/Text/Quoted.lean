/-
# Quoted text

Messages show a text between quotes. The quote is an apostrophe, unless the text
holds an apostrophe and no double quote. Inside, the quote in use and the
backslash are escaped, tab and the two line breaks have escapes of their own, and
every other character that is not printable is shown by its code in hexadecimal.
A stray byte is shown as the code U+DC00 plus the byte, which no character has.
-/

import AttributeLists.Text.Glyph
import AttributeLists.Text.Printable

namespace AttributeLists

namespace Quoted

/-- The lowest `width` hexadecimal digits of a number, in lower case. -/
def hexadecimal : (width : Nat) → Nat → List Char
  | 0, _ => []
  | width + 1, n => hexadecimal width (n / 16) ++ [Nat.digitChar (n % 16)]

/-- A code in hexadecimal, in the shortest of the three widths that holds it. -/
def escapeCode (code : Nat) : List Char :=
  if code < 0x100 then '\\' :: 'x' :: hexadecimal 2 code
  else if code < 0x10000 then '\\' :: 'u' :: hexadecimal 4 code
  else '\\' :: 'U' :: hexadecimal 8 code

/-- One character between two `mark`s. -/
def escapeChar (mark c : Char) : List Char :=
  if c = mark ∨ c = '\\' then ['\\', c]
  else if c = '\t' then ['\\', 't']
  else if c = '\n' then ['\\', 'n']
  else if c = '\r' then ['\\', 'r']
  else if printables.contains c then [c]
  else escapeCode c.toNat

/-- One glyph between two `mark`s. -/
def escapeGlyph (mark : Char) : Glyph → List Char
  | .char c => escapeChar mark c
  | .stray byte _ => escapeCode (0xDC00 + byte.toNat)

/-- The quote that a text is shown in. -/
def mark (t : Text) : Char :=
  if .char '\'' ∈ t ∧ .char '"' ∉ t then '"' else '\''

end Quoted

/-- A text as a message shows it. -/
def Text.quoted (t : Text) : String :=
  let mark := Quoted.mark t
  String.ofList (mark :: t.flatMap (Quoted.escapeGlyph mark) ++ [mark])

end AttributeLists
