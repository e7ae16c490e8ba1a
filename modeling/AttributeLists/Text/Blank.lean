/-
# Blank text

Blanks are the Unicode white space characters together with the four separator
controls U+001C to U+001F. Trimming takes the blanks off both ends of a text and
touches nothing between them.

The line breaks that end an attribute list's line are only carriage return and
line feed; they are a part of the blanks and are treated in `Text.Line`.
-/

import AttributeLists.Text.CharClass
import AttributeLists.Text.Glyph

namespace AttributeLists

/-- The code points that count as blank. -/
def blanks : CharClass :=
  [(0x9, 0xD), (0x1C, 0x20), (0x85, 0x85), (0xA0, 0xA0), (0x1680, 0x1680), (0x2000, 0x200A),
   (0x2028, 0x2029), (0x202F, 0x202F), (0x205F, 0x205F), (0x3000, 0x3000)]

namespace Glyph

/-- A blank character. -/
def isBlank : Glyph → Bool :=
  satisfies blanks.contains

end Glyph

namespace Text

/-- A text of blanks only, such as the empty text. -/
def isBlank (t : Text) : Bool :=
  t.all Glyph.isBlank

/-- The text after its leading blanks. -/
def trimStart (t : Text) : Text :=
  t.dropWhile Glyph.isBlank

/-- The text before its trailing blanks. -/
def trimEnd (t : Text) : Text :=
  (t.reverse.dropWhile Glyph.isBlank).reverse

/-- The text without the blanks at its two ends. -/
def trim (t : Text) : Text :=
  t.trimStart.trimEnd

/-- What trimming takes off the front is put back by the leading blanks. -/
theorem takeWhile_append_trimStart (t : Text) :
    t.takeWhile Glyph.isBlank ++ t.trimStart = t :=
  List.takeWhile_append_dropWhile

end Text

end AttributeLists
