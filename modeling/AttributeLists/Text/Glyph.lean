/-
# Source text

A text is a list of glyphs. A glyph is a character, or a stray byte: one that
takes part in no well-formed UTF-8 sequence and is carried along so that it can
be written back as it was. Stray bytes belong to no class of characters, so no
rule about blanks, names or punctuation ever applies to one.

A string that may hold lone surrogates can hold more than a text: the ones from U+DC80 to
U+DCFF, as which stray bytes are escaped, are glyphs, and no glyph stands for any other.

Offsets into a text count glyphs.
-/

namespace AttributeLists

/-- One unit of source text: a character, or a byte that decodes to none. A
byte below 128 is always a character, so only the upper half can be stray. -/
inductive Glyph
  | char (c : Char)
  | stray (byte : UInt8) (high : 128 ≤ byte)
  deriving DecidableEq

/-- Source text, glyph by glyph. -/
abbrev Text := List Glyph

namespace Glyph

/-- Membership of a glyph in a class of characters. A stray byte is in none. -/
def satisfies (p : Char → Bool) : Glyph → Bool
  | char c => p c
  | stray .. => false

@[simp]
theorem satisfies_char (p : Char → Bool) (c : Char) : (char c).satisfies p = p c := rfl

@[simp]
theorem satisfies_stray (p : Char → Bool) (byte : UInt8) (high : 128 ≤ byte) :
    (stray byte high).satisfies p = false := rfl

end Glyph

namespace Text

/-- The text of a string, which holds no stray byte. -/
def ofString (s : String) : Text :=
  s.toList.map Glyph.char

/-- The characters of a text, unless it holds a stray byte. -/
def toChars? : Text → Option (List Char)
  | [] => some []
  | .char c :: rest => (toChars? rest).map (c :: ·)
  | .stray .. :: _ => none

end Text

end AttributeLists
