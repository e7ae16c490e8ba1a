/-
# UTF-8 with stray bytes

Decoding reads well-formed UTF-8 sequences as characters. A byte that starts no
well-formed sequence becomes a stray glyph and decoding goes on with the byte
after it; overlong forms, encoded surrogates and values beyond the last code
point are not well formed. Encoding writes each character as its sequence and
each stray byte as itself.

Decoding loses nothing: encoding a decoded text gives back the bytes it came
from. In the other direction a text without stray bytes is read back from its
encoding; a text with stray bytes need not be, since strays that stand next to
each other may together form a sequence.
-/

import AttributeLists.Text.Glyph

namespace AttributeLists

/-- The contents of a file. -/
abbrev Bytes := List UInt8

namespace Utf8

/-- The bytes of one glyph. -/
def encodeGlyph : Glyph → Bytes
  | .char c => String.utf8EncodeChar c
  | .stray byte _ => [byte]

/-- The bytes of a text. -/
def encode (t : Text) : Bytes :=
  t.flatMap encodeGlyph

/-- The character whose well-formed sequence stands at the front. No sequence is
longer than four bytes. -/
def leadingChar? (bytes : Bytes) : Option Char :=
  (bytes.take 4).toByteArray.utf8DecodeChar? 0

/-- Decode after the glyphs already read, which come in reverse order. -/
def decodeAfter (done : Text) : Bytes → Text
  | [] => done.reverse
  | byte :: rest =>
      if high : 128 ≤ byte then
        match leadingChar? (byte :: rest) with
        | some c => decodeAfter (.char c :: done) (rest.drop (c.utf8Size - 1))
        | none => decodeAfter (.stray byte high :: done) rest
      else
        decodeAfter (.char (Char.ofUInt8 byte) :: done) rest
termination_by bytes => bytes.length
decreasing_by
  all_goals simp only [List.length_drop, List.length_cons]
  all_goals omega

/-- The text that a sequence of bytes stands for. -/
def decode (bytes : Bytes) : Text :=
  decodeAfter [] bytes

/-- A character read at the front was put there by its encoding. -/
theorem eq_append_of_leadingChar? {bytes : Bytes} {c : Char}
    (h : leadingChar? bytes = some c) :
    bytes = String.utf8EncodeChar c ++ bytes.drop c.utf8Size := by
  have whole := congrArg (fun b => b.data.toList) (ByteArray.eq_of_utf8DecodeChar?_eq_some h)
  simp only [List.toList_data_toByteArray, ByteArray.toList_data_append] at whole
  have parts : bytes = String.utf8EncodeChar c ++
      (((bytes.take 4).toByteArray.extract c.utf8Size (bytes.take 4).toByteArray.size).data.toList
        ++ bytes.drop 4) := by
    rw [← List.append_assoc, ← whole, List.take_append_drop]
  have size := String.length_utf8EncodeChar c
  rw [parts, ← size, List.drop_left]

/-- The encoding of a character is read back whatever follows it. -/
theorem leadingChar?_utf8EncodeChar_append (c : Char) (rest : Bytes) :
    leadingChar? (String.utf8EncodeChar c ++ rest) = some c := by
  have short : (String.utf8EncodeChar c).length ≤ 4 := by
    rw [String.length_utf8EncodeChar]
    exact c.utf8Size_le_four
  rw [leadingChar?, List.take_append, List.take_of_length_le short, List.toByteArray_append]
  exact ByteArray.utf8DecodeChar?_utf8EncodeChar_append

/-- A byte below 128 is the whole encoding of its character. -/
theorem utf8EncodeChar_ofUInt8 {byte : UInt8} (low : byte < 128) :
    String.utf8EncodeChar (Char.ofUInt8 byte) = [byte] := by
  have code : (Char.ofUInt8 byte).val.toNat = byte.toNat := rfl
  have bound : byte.toNat < 128 := low
  rw [String.utf8EncodeChar, code, if_pos (by omega), UInt8.ofNat_toNat]

private theorem encode_decodeAfter (done : Text) (bytes : Bytes) :
    encode (decodeAfter done bytes) = encode done.reverse ++ bytes := by
  fun_induction decodeAfter done bytes with
  | case1 done => simp
  | case2 done byte rest high c found ih =>
      have front := eq_append_of_leadingChar? found
      have size : c.utf8Size = c.utf8Size - 1 + 1 := by
        have := c.utf8Size_pos
        omega
      rw [size, List.drop_succ_cons] at front
      rw [ih, front]
      simp [encode, encodeGlyph]
  | case3 done byte rest high unread ih => rw [ih]; simp [encode, encodeGlyph]
  | case4 done byte rest low ih =>
      rw [ih]
      simp [encode, encodeGlyph, utf8EncodeChar_ofUInt8 (UInt8.not_le.mp low)]

/-- Decoding loses nothing: every sequence of bytes is written back as it was. -/
theorem encode_decode (bytes : Bytes) : encode (decode bytes) = bytes := by
  rw [decode, encode_decodeAfter]
  rfl

private theorem decodeAfter_utf8EncodeChar_append (done : Text) (c : Char) (rest : Bytes) :
    decodeAfter done (String.utf8EncodeChar c ++ rest) = decodeAfter (.char c :: done) rest := by
  have found := leadingChar?_utf8EncodeChar_append c rest
  have size := String.length_utf8EncodeChar c
  cases front : String.utf8EncodeChar c with
  | nil => exact absurd front String.utf8EncodeChar_ne_nil
  | cons byte more =>
      rw [front, List.cons_append] at found
      rw [front, List.length_cons] at size
      rw [List.cons_append, decodeAfter, found]
      split
      · simp only [← size, Nat.add_sub_cancel, List.drop_left]
      · rename_i low
        have ascii := utf8EncodeChar_ofUInt8 (UInt8.not_le.mp low)
        have again := leadingChar?_utf8EncodeChar_append (Char.ofUInt8 byte) (more ++ rest)
        rw [ascii, List.cons_append, List.nil_append, found] at again
        injection again with same
        rw [← same, front] at ascii
        injection ascii with _ none
        rw [none, ← same, List.nil_append]

/-- A text without stray bytes is read back from its encoding. -/
theorem decode_encode_char (chars : List Char) :
    decode (encode (chars.map Glyph.char)) = chars.map Glyph.char := by
  have after : ∀ done : Text, decodeAfter done (encode (chars.map Glyph.char)) =
      done.reverse ++ chars.map Glyph.char := by
    induction chars with
    | nil => intro done; simp [encode, decodeAfter]
    | cons c rest ih =>
        intro done
        have step : encode ((c :: rest).map Glyph.char) =
            String.utf8EncodeChar c ++ encode (rest.map Glyph.char) := rfl
        rw [step, decodeAfter_utf8EncodeChar_append, ih]
        simp
  exact after []

end Utf8

end AttributeLists
