/-
# Words in either case

A word is written in either case if each of its letters stands as it is or as the capital of
it. Making all capitals small finds out: a character becomes a small letter exactly if it is
that letter or its capital, since only ASCII letters have a case here.
-/

import Mathlib.Data.List.Forall2

namespace AttributeLists

/-- The characters spell the word, each of them small or capital. -/
def SpelledInEitherCase (word : String) (chars : List Char) : Prop :=
  List.Forall₂ (fun c letter => c = letter ∨ c = letter.toUpper) chars word.toList

theorem toNat_toLower (c : Char) :
    c.toLower.toNat = if 65 ≤ c.toNat ∧ c.toNat ≤ 90 then c.toNat + 32 else c.toNat := by
  unfold Char.toLower
  split
  · rename_i capital
    have bounds : 65 ≤ c.toNat ∧ c.toNat ≤ 90 := by
      simpa [UInt32.le_iff_toNat_le] using capital
    rw [if_pos bounds, ← Char.toNat_val, UInt32.toNat_add]
    simp
    omega
  · rename_i other
    rw [if_neg (by simpa [UInt32.le_iff_toNat_le] using other)]

theorem toNat_toUpper (c : Char) :
    c.toUpper.toNat = if 97 ≤ c.toNat ∧ c.toNat ≤ 122 then c.toNat - 32 else c.toNat := by
  unfold Char.toUpper
  split
  · rename_i small
    have bounds : 97 ≤ c.toNat ∧ c.toNat ≤ 122 := by
      simpa [UInt32.le_iff_toNat_le] using small
    rw [if_pos bounds, ← Char.toNat_val, UInt32.toNat_add]
    simp
    omega
  · rename_i other
    rw [if_neg (by simpa [UInt32.le_iff_toNat_le] using other)]

/-- A character that is made small becomes a letter exactly if it is the letter or its
capital. -/
theorem toLower_eq_iff {letter : Char} (small : letter.isUpper = false) (c : Char) :
    c.toLower = letter ↔ c = letter ∨ c = letter.toUpper := by
  have uncapital : ¬ (65 ≤ letter.toNat ∧ letter.toNat ≤ 90) := by
    unfold Char.isUpper at small
    simpa [UInt32.le_iff_toNat_le] using small
  simp only [← Char.toNat_inj, toNat_toLower, toNat_toUpper]
  split <;> split <;> omega

theorem map_toLower_eq_iff {word : String} (small : ∀ letter ∈ word.toList, letter.isUpper = false)
    (chars : List Char) :
    chars.map Char.toLower = word.toList ↔ SpelledInEitherCase word chars := by
  rw [← List.forall₂_eq_eq_eq, List.forall₂_map_left_iff, SpelledInEitherCase]
  generalize word.toList = letters at small ⊢
  induction chars generalizing letters with
  | nil => cases letters <;> simp
  | cons c chars ih =>
      cases letters with
      | nil => simp
      | cons letter letters =>
          obtain ⟨first, later⟩ := List.forall_mem_cons.mp small
          rw [List.forall₂_cons, List.forall₂_cons, toLower_eq_iff first, ih letters later]

end AttributeLists
