/-
# Bytes of a text

A text is handed on as a sequence of code points, in which a stray byte is escaped: it is
the surrogate 0xDC00 above it. Not every sequence of code points has an encoding, but one
in which every surrogate escapes a byte does, so every text has one.

An ASCII character is encoded as its own byte, and no other glyph has this byte in its
encoding. So ASCII characters can be counted in the bytes of a text.

Bytes are valid if they encode characters alone. Their text then has no stray byte, and a
text without stray bytes is read back from its encoding.
-/

import AttributeLists.Text.Utf8

namespace AttributeLists

/-- The code point that a glyph is handed on as. A stray byte is escaped. -/
def Glyph.codePoint : Glyph → Nat
  | char c => c.toNat
  | stray byte _ => 0xDC00 + byte.toNat

/-- Every glyph of the text is a character. -/
def Text.StrayFree (t : Text) : Prop :=
  ∀ g ∈ t, ∃ c, g = .char c

theorem Text.strayFree_iff {t : Text} :
    t.StrayFree ↔ ∃ chars : List Char, t = chars.map .char := by
  constructor
  · intro free
    induction t with
    | nil => exact ⟨[], rfl⟩
    | cons g rest ih =>
        obtain ⟨c, rfl⟩ := free g List.mem_cons_self
        obtain ⟨chars, rfl⟩ := ih fun other inside =>
          free other (List.mem_cons_of_mem _ inside)
        exact ⟨c :: chars, rfl⟩
  · rintro ⟨chars, rfl⟩ g inside
    obtain ⟨c, -, rfl⟩ := List.mem_map.mp inside
    exact ⟨c, rfl⟩

theorem Text.StrayFree.cons {t : Text} (free : t.StrayFree) (c : Char) :
    Text.StrayFree (.char c :: t) :=
  List.forall_mem_cons.mpr ⟨⟨c, rfl⟩, free⟩

theorem Text.strayFree_ofString (s : String) : (Text.ofString s).StrayFree :=
  strayFree_iff.mpr ⟨s.toList, rfl⟩

namespace Utf8

/-- The bytes of a code point. A surrogate has none unless it escapes a byte. -/
def encodeCodePoint? (n : Nat) : Option Bytes :=
  if valid : n.isValidChar then some (String.utf8EncodeChar (.ofNatAux n valid))
  else if 0xDC80 ≤ n ∧ n ≤ 0xDCFF then some [UInt8.ofNat (n - 0xDC00)]
  else none

/-- The bytes of a sequence of code points, if each of them has some. -/
def encodeCodePoints? : List Nat → Option Bytes
  | [] => some []
  | n :: rest => do return (← encodeCodePoint? n) ++ (← encodeCodePoints? rest)

theorem encodeCodePoint?_eq_none_iff {n : Nat} (within : n ≤ 0x10FFFF) :
    encodeCodePoint? n = none ↔ 0xD800 ≤ n ∧ n < 0xDC80 ∨ 0xDCFF < n ∧ n ≤ 0xDFFF := by
  rw [encodeCodePoint?]
  by_cases valid : n.isValidChar
  · rw [dif_pos valid]
    unfold Nat.isValidChar at valid
    exact iff_of_false (Option.some_ne_none _) (by omega)
  · rw [dif_neg valid]
    unfold Nat.isValidChar at valid
    by_cases escapes : 0xDC80 ≤ n ∧ n ≤ 0xDCFF
    · rw [if_pos escapes]
      exact iff_of_false (Option.some_ne_none _) (by omega)
    · rw [if_neg escapes]
      exact iff_of_true rfl (by omega)

theorem encodeCodePoint?_codePoint (g : Glyph) :
    encodeCodePoint? g.codePoint = some (encodeGlyph g) := by
  cases g with
  | char c => exact dif_pos c.valid
  | stray byte high =>
      have least : 128 ≤ byte.toNat := high
      have most : byte.toNat < 256 := byte.toNat_lt
      have surrogate : ¬ (0xDC00 + byte.toNat).isValidChar := by
        unfold Nat.isValidChar
        omega
      rw [Glyph.codePoint, encodeCodePoint?, dif_neg surrogate, if_pos (by omega),
        Nat.add_sub_cancel_left, UInt8.ofNat_toNat, encodeGlyph]

/-- Every text has an encoding. -/
theorem encodeCodePoints?_map_codePoint (t : Text) :
    encodeCodePoints? (t.map Glyph.codePoint) = some (encode t) := by
  induction t with
  | nil => rfl
  | cons g rest ih =>
      rw [List.map_cons, encodeCodePoints?, encodeCodePoint?_codePoint, ih]
      rfl

/-- The encoding of a character that is not ASCII has no byte of an ASCII character. -/
theorem le_of_mem_utf8EncodeChar {c : Char} (wide : 128 ≤ c.toNat) :
    ∀ byte ∈ String.utf8EncodeChar c, 128 ≤ byte.toNat := by
  have long : ¬ c.val.toNat ≤ 0x7f := Nat.not_le.mpr wide
  have last : c.val.toNat < 0x110000 := by
    have valid : c.val.toNat.isValidChar := c.valid
    unfold Nat.isValidChar at valid
    omega
  unfold String.utf8EncodeChar
  simp only [if_neg long]
  split
  · simp
    omega
  · split
    · simp
      omega
    · simp
      omega

theorem encodeGlyph_of_ascii {c : Char} (ascii : c.toNat < 128) :
    encodeGlyph (.char c) = [UInt8.ofNat c.toNat] :=
  if_pos (Nat.le_of_lt_succ ascii)

/-- The byte of an ASCII character is in the encoding of that character only. -/
theorem mem_encodeGlyph_iff {c : Char} (ascii : c.toNat < 128) {g : Glyph} :
    UInt8.ofNat c.toNat ∈ encodeGlyph g ↔ g = .char c := by
  have own : (UInt8.ofNat c.toNat).toNat = c.toNat := by
    rw [UInt8.toNat_ofNat']
    omega
  constructor
  · intro inside
    cases g with
    | stray byte high =>
        obtain rfl := List.mem_singleton.mp inside
        have least : 128 ≤ (UInt8.ofNat c.toNat).toNat := high
        omega
    | char d =>
        by_cases wide : 128 ≤ d.toNat
        · have least := le_of_mem_utf8EncodeChar wide _ inside
          omega
        · have narrow : d.toNat < 128 := Nat.not_le.mp wide
          rw [encodeGlyph_of_ascii narrow, List.mem_singleton] at inside
          have same := congrArg UInt8.toNat inside
          rw [own, UInt8.toNat_ofNat', Nat.mod_eq_of_lt (by omega)] at same
          rw [Char.toNat_inj.mp same]
  · rintro rfl
    rw [encodeGlyph_of_ascii ascii]
    exact List.mem_singleton_self _

/-- An ASCII character is found in the bytes of a text as often as in the text. -/
theorem count_encode {c : Char} (ascii : c.toNat < 128) (t : Text) :
    (encode t).count (UInt8.ofNat c.toNat) = t.count (.char c) := by
  induction t with
  | nil => rfl
  | cons g rest ih =>
      have parted : encode (g :: rest) = encodeGlyph g ++ encode rest := rfl
      rw [parted, List.count_append, ih]
      by_cases same : g = .char c
      · subst same
        rw [encodeGlyph_of_ascii ascii, List.count_singleton_self, List.count_cons_self,
          Nat.add_comm]
      · have absent : UInt8.ofNat c.toNat ∉ encodeGlyph g :=
          fun inside => same ((mem_encodeGlyph_iff ascii).mp inside)
        rw [List.count_eq_zero_of_not_mem absent, List.count_cons_of_ne same, Nat.zero_add]

/-- A text without stray bytes is read back from its encoding. -/
theorem decode_encode {t : Text} (free : t.StrayFree) : decode (encode t) = t := by
  obtain ⟨chars, rfl⟩ := Text.strayFree_iff.mp free
  exact decode_encode_char chars

/-- Bytes are valid exactly if their text has no stray byte. -/
theorem isValidUTF8_iff_strayFree_decode {bytes : Bytes} :
    bytes.toByteArray.IsValidUTF8 ↔ (decode bytes).StrayFree := by
  have encoded (chars : List Char) : encode (chars.map .char) =
      chars.flatMap String.utf8EncodeChar := List.flatMap_map ..
  rw [Text.strayFree_iff]
  constructor
  · rintro ⟨chars, written⟩
    have bytes_eq : bytes = encode (chars.map .char) := by
      rw [encoded]
      exact List.toByteArray_inj.mp written
    exact ⟨chars, by rw [bytes_eq, decode_encode_char]⟩
  · rintro ⟨chars, read⟩
    have bytes_eq : bytes = encode (chars.map .char) := by rw [← read, encode_decode]
    refine ⟨chars, ?_⟩
    rw [bytes_eq, encoded]
    rfl

theorem isValidUTF8_encode {t : Text} (free : t.StrayFree) :
    (encode t).toByteArray.IsValidUTF8 := by
  rwa [isValidUTF8_iff_strayFree_decode, decode_encode free]

end Utf8

end AttributeLists
