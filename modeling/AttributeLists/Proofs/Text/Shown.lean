/-
# Blanks among other characters

A blank is none of the characters that names and lists are made of: it continues no
word and starts no identifier, and it differs from every mark that is not blank
itself. Each fact comes down to looking the few blank code points up.
-/

import AttributeLists.Text.Blank
import AttributeLists.Text.Line
import AttributeLists.Text.Word

namespace AttributeLists

theorem CharClass.exists_range_of_containsCode {code : Nat} {cls : CharClass}
    (inside : cls.containsCode code = true) :
    ∃ range ∈ cls, range.1 ≤ code ∧ code ≤ range.2 := by
  induction cls with
  | nil => contradiction
  | cons range cls ih =>
      rcases range with ⟨first, last⟩
      by_cases above : last < code
      · rw [containsCode, if_pos above] at inside
        obtain ⟨range, member, bounds⟩ := ih inside
        exact ⟨range, List.mem_cons_of_mem _ member, bounds⟩
      · rw [containsCode, if_neg above] at inside
        exact ⟨(first, last), List.mem_cons_self, by simpa using inside, by simpa using above⟩

namespace Glyph

/-- The blank code points, one by one. -/
def blankCodes : List Nat :=
  blanks.flatMap fun range => (List.range (range.2 + 1 - range.1)).map (range.1 + ·)

theorem mem_blankCodes {c : Char} (blank : (char c).isBlank = true) : c.toNat ∈ blankCodes := by
  obtain ⟨range, member, above, below⟩ := CharClass.exists_range_of_containsCode blank
  rw [blankCodes, List.mem_flatMap]
  refine ⟨range, member, List.mem_map.mpr ⟨c.toNat - range.1, ?_, by omega⟩⟩
  rw [List.mem_range]
  omega

theorem ne_of_isBlank {g : Glyph} {c : Char} (blank : g.isBlank = true)
    (shows : (char c).isBlank = false) : g ≠ .char c := by
  rintro rfl
  rw [shows] at blank
  contradiction

theorem isWord_of_isBlank {g : Glyph} (blank : g.isBlank = true) : g.isWord = false := by
  cases g with
  | stray byte high => rfl
  | char c =>
      have unworded : ∀ code ∈ blankCodes, words.containsCode code = false := by decide +kernel
      apply unworded
      exact mem_blankCodes blank

theorem startsIdentifier_of_isBlank {g : Glyph} (blank : g.isBlank = true) :
    g.startsIdentifier = false := by
  cases g with
  | stray byte high => rfl
  | char c =>
      have unstarting : ∀ code ∈ blankCodes, (char (Char.ofNat code)).startsIdentifier = false := by
        decide
      simpa using unstarting _ (mem_blankCodes blank)

end Glyph

theorem Text.char_not_mem_of_isBlank {t : Text} {c : Char} (blank : t.isBlank = true)
    (shows : (Glyph.char c).isBlank = false) : .char c ∉ t :=
  fun inside => Glyph.ne_of_isBlank (List.all_eq_true.mp blank _ inside) shows rfl

/-- Blanks in front of a text do not go on with a word either. -/
theorem Text.head?_append_isWord {run rest : Text} (blank : run.isBlank = true)
    (unword : ∀ g ∈ rest.head?, g.isWord = false) :
    ∀ g ∈ (run ++ rest).head?, g.isWord = false := by
  cases run with
  | nil => exact unword
  | cons other run =>
      intro g first
      obtain rfl : other = g := by simpa using first
      apply Glyph.isWord_of_isBlank
      exact List.all_eq_true.mp blank _ List.mem_cons_self

end AttributeLists
