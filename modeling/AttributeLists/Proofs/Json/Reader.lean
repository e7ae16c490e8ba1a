/-
# The texts of a document

A document is made of characters, and so are the texts that are read from it: an escape
stands for a character, a pair of surrogates for one, and a surrogate alone is no text.
So no text of a document holds a stray byte.
-/

import AttributeLists.Json.Reader
import AttributeLists.Proofs.Text.Utf8

namespace AttributeLists.Json

open AttributeLists.Text

variable {limits : Limits} {room bound : Nat} {chars rest : List Char} {t : Text}

namespace Reader

theorem strayFree_of_textOfCodes {codes : List Nat} (read : textOfCodes codes = some t) :
    t.StrayFree := by
  induction codes using textOfCodes.induct generalizing t with
  | case1 =>
      cases read
      exact strayFree_ofString ""
  | case2 high low rest leads follows ih =>
      simp only [textOfCodes, if_pos leads, if_pos follows] at read
      obtain ⟨behind, joined, rfl⟩ := Option.map_eq_some_iff.mp read
      exact (ih joined).cons _
  | case3 high low rest leads alone => simp [textOfCodes, leads, alone] at read
  | case4 high low rest no_lead alone => simp [textOfCodes, no_lead, alone] at read
  | case5 high low rest no_lead whole ih =>
      simp only [textOfCodes, if_neg no_lead, if_neg whole] at read
      obtain ⟨behind, joined, rfl⟩ := Option.map_eq_some_iff.mp read
      exact (ih joined).cons _
  | case6 code alone => simp [textOfCodes, alone] at read
  | case7 code whole =>
      simp only [textOfCodes, if_neg whole, Option.some.injEq] at read
      subst read
      exact (strayFree_ofString "").cons _

theorem strayFree_of_readString (read : readString chars = some (t, rest)) : t.StrayFree := by
  simp only [readString, bind, Option.bind_eq_some_iff] at read
  obtain ⟨⟨codes, after⟩, -, text, joined, made⟩ := read
  cases made
  exact strayFree_of_textOfCodes joined

theorem number?_ne_text {negative : Bool} {whole : List Char} {fraction : Option (List Char)}
    {exponent : Option Int} (t : Text) :
    number? limits negative whole fraction exponent ≠ some (.text t) := by
  fun_cases number? limits negative whole fraction exponent <;> simp_all

theorem readNumber_ne_text (t : Text) : readNumber limits chars ≠ some (.text t, rest) := by
  intro read
  simp only [readNumber, bind, Option.bind_eq_some_iff] at read
  obtain ⟨_, -, _, -, _, -, value, made, same⟩ := read
  cases same
  exact number?_ne_text t made

theorem bind_eq_ok {ε α β : Type} {read : Except ε α} {more : α → Except ε β} {b : β}
    (done : read >>= more = .ok b) : ∃ a, read = .ok a ∧ more a = .ok b := by
  cases read with
  | error cause => cases done
  | ok a => exact ⟨a, rfl, done⟩

theorem orMalformed_eq_ok_iff {α : Type} {read : Option α} {a : α} :
    orMalformed read = .ok a ↔ read = some a := by
  cases read <;> simp [orMalformed]

/-- A value that is a text is made of characters. -/
theorem strayFree_of_readValue (read : readValue limits room bound chars = .ok (.text t, rest)) :
    t.StrayFree := by
  fun_cases readValue limits room bound chars
  case case1 => cases read
  case case5 bound rest front =>
    rw [readValue, front] at read
    obtain ⟨⟨text, after⟩, string, made⟩ := bind_eq_ok read
    cases made
    exact strayFree_of_readString (orMalformed_eq_ok_iff.mp string)
  case case8 bound rest many room front | case11 bound rest many room front =>
    simp only [readValue, front, if_neg room] at read
    obtain ⟨_, -, made⟩ := bind_eq_ok read
    cases made
  case case12 bound _ _ _ _ _ _ =>
    -- Nothing else stands in front, so this is a number.
    simp_all only [readValue]
    exact absurd (orMalformed_eq_ok_iff.mp read) (readNumber_ne_text t)
  all_goals simp_all [readValue]

/-- If the texts of the fields that are done are made of characters, so are those of all. -/
theorem strayFree_of_readFields {done fields : List (Text × Value)}
    (before : ∀ name t, (name, .text t) ∈ done → t.StrayFree)
    (read : readFields limits room bound done chars = .ok (fields, rest)) :
    ∀ name t, (name, .text t) ∈ fields → t.StrayFree := by
  induction bound generalizing done chars with
  | zero => cases read
  | succ bound ih =>
      -- One field: its name, a colon, its value, and what tells whether another one follows.
      rw [readFields] at read
      split at read
      case h_2 => cases read
      obtain ⟨⟨name, _⟩, -, read⟩ := bind_eq_ok read
      dsimp only at read
      split at read
      case h_2 => cases read
      obtain ⟨⟨value, _⟩, valued, read⟩ := bind_eq_ok read
      have extended : ∀ other t, (other, .text t) ∈ (name, value) :: done → t.StrayFree := by
        rintro other t (_ | ⟨_, inside⟩)
        · exact strayFree_of_readValue valued
        · exact before other t inside
      dsimp only at read
      split at read
      case h_1 => exact ih extended read
      case h_2 =>
        cases read
        exact fun other t inside => extended other t (List.mem_reverse.mp inside)
      case h_3 => cases read

end Reader

/-- The texts that a document's fields hold are made of characters. -/
theorem strayFree_of_fieldsOfDocument {document : String} {fields : List (Text × Value)}
    (read : fieldsOfDocument limits document = .ok fields) {name : Text}
    (inside : (name, .text t) ∈ fields) : t.StrayFree := by
  simp only [fieldsOfDocument] at read
  split at read
  case h_2 => cases read
  split at read
  · cases read
  split at read
  · split at read
    · cases read
      cases inside
    · cases read
  · obtain ⟨⟨fields, _⟩, listed, ended⟩ := Reader.bind_eq_ok read
    dsimp only at ended
    split at ended
    · cases ended
      exact Reader.strayFree_of_readFields (fun _ _ before => absurd before List.not_mem_nil)
        listed name t inside
    · cases ended

end AttributeLists.Json
