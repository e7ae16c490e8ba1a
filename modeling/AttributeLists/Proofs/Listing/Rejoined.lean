/-
# Some of the entries of a body, joined anew

A list that is written anew joins some of its entries with a comma and a space, each without
the blanks around it. Trimming takes nothing out of a literal or a group, and a literal is
opened by what stands right in front of it in its own entry, so each trimmed entry can be
divided on its own. A join of such entries is divided where it was joined, and since blanks
around an entry are no part of its name, every entry keeps the name that it had.
-/

import AttributeLists.Proofs.Listing.Commas
import AttributeLists.Proofs.Listing.Entry

namespace AttributeLists

open Commas

/-- Any of the entries, trimmed and joined, are the entries of the joined text, the later ones
with a space in front, and each has the name of the entry that it comes from. -/
theorem splitEntries_rejoined {body : Text} {entries : List Entry}
    (divided : splitEntries body = some entries) {first : Entry} {more : List Entry}
    (chosen : (first :: more).Sublist entries) :
    ∃ tokens : List Entry,
      splitEntries (List.intercalate (Text.ofString ", ") ((first :: more).map Text.trim)) =
        some tokens ∧
      tokens = Text.trim first :: more.map (fun e => .char ' ' :: Text.trim e) ∧
      tokens.map Entry.name? = (first :: more).map Entry.name? := by
  have whole : ∀ e ∈ Text.trim first :: more.map Text.trim, Whole .start e := by
    rw [← List.map_cons, List.forall_mem_map]
    intro e listed
    apply whole_start_trim.mpr
    exact whole_of_splitEntries divided e (chosen.mem listed)
  have spaced (e : Entry) : Entry.name? (.char ' ' :: Text.trim e) = e.name? := by
    have space : Text.isBlank [.char ' '] = true := rfl
    exact (Entry.name?_append_left_of_isBlank space _).trans (Entry.name?_trim e)
  refine ⟨_, splitEntries_intercalate whole, ?_, ?_⟩
  · rw [List.map_map]
    rfl
  · simp [spaced]

/-- The first entry goes, a quote stands first behind the blanks of the next one, and the
blanks around a dot of the last one stay in its name. -/
theorem splitEntries_rejoined_without_first :
    let body := Text.ofString "T @,\t\"x,y\" ,A(@\"\\\"), Ns . B ('(')\n"
    let last := Text.ofString " Ns . B ('(')\n"
    let quoted := Text.ofString "\t\"x,y\" "
    let entries := [Text.ofString "T @", quoted, Text.ofString "A(@\"\\\")", last]
    splitEntries body = some entries ∧ [quoted, last].Sublist entries ∧
    ∃ tokens : List Entry,
      splitEntries (Text.ofString "\"x,y\", Ns . B ('(')") = some tokens ∧
      tokens = [Text.ofString "\"x,y\"", Text.ofString " Ns . B ('(')"] ∧
      tokens.map Entry.name? = [none, some (Text.ofString "Ns . B")] := by
  intro body last quoted entries
  have divided : splitEntries body = some entries := by decide +kernel
  have chosen : [quoted, last].Sublist entries := by decide +kernel
  have names : [quoted, last].map Entry.name? =
      [none, some (Text.ofString "Ns . B")] := by decide +kernel
  have joined : List.intercalate (Text.ofString ", ")
      ([quoted, last].map Text.trim) =
        Text.ofString "\"x,y\", Ns . B ('(')" := by decide +kernel
  obtain ⟨tokens, found, same, kept⟩ := splitEntries_rejoined divided chosen
  rw [joined] at found
  refine ⟨divided, chosen, tokens, found, ?_, kept.trans names⟩
  rw [same]
  decide +kernel

end AttributeLists
