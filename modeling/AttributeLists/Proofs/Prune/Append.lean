/-
# Pruning a text in two parts

Where nothing reaches from the first part of a text into the second, both can be
pruned on their own. For lists this needs a line feed at the end of the first part and
no opening bracket after its last list. For blank lines it needs in addition that the
first part leaves a line that shows something at its end, since otherwise a run of
blank lines may go on.
-/

import AttributeLists.Proofs.Listing.Append
import AttributeLists.Proofs.Prune.Draft
import AttributeLists.Proofs.Prune.LowerBound
import AttributeLists.Proofs.Text.Lines

namespace AttributeLists

namespace Layout

variable (wanted : Text)

theorem pruned_prepend (front : Text) (l : Layout) :
    (l.prepend front).pruned wanted = front ++ l.pruned wanted := by
  rcases l with ⟨parts, tail⟩
  cases parts with
  | nil => rfl
  | cons part parts => simp [prepend, pruned, prune, pruneParts]

theorem total_prune_prepend (front : Text) (l : Layout) :
    Pruned.total ((l.prepend front).prune wanted) = Pruned.total (l.prune wanted) := by
  rcases l with ⟨parts, tail⟩
  cases parts with
  | nil => rfl
  | cons part parts => rfl

theorem removals_prune_prepend (offset : Nat) (front : Text) (l : Layout) :
    Pruned.removals offset ((l.prepend front).prune wanted) =
      Pruned.removals (offset + front.length) (l.prune wanted) := by
  rcases l with ⟨parts, tail⟩
  cases parts with
  | nil => rfl
  | cons part parts => simp [prepend, prune, pruneParts, Pruned.removals, Nat.add_assoc]

theorem pieces_append (first second : Layout) :
    (first.append second).prune wanted =
      first.prune wanted ++ (second.prepend first.tail).prune wanted :=
  pruneParts_append wanted first.parts _

theorem pruned_append (first second : Layout) :
    (first.append second).pruned wanted = first.pruned wanted ++ second.pruned wanted := by
  have joined := pruned_prepend wanted first.tail second
  rw [pruned] at joined
  rw [pruned, pieces_append, Pruned.written_append, List.append_assoc, append, joined,
    ← List.append_assoc, ← pruned]

theorem total_prune_append (first second : Layout) :
    Pruned.total ((first.append second).prune wanted) =
      Pruned.total (first.prune wanted) + Pruned.total (second.prune wanted) := by
  rw [pieces_append, Pruned.total_append, total_prune_prepend]

theorem removals_prune_append (first second : Layout) :
    Pruned.removals 0 ((first.append second).prune wanted) =
      Pruned.removals 0 (first.prune wanted) ++
        (Pruned.removals 0 (second.prune wanted)).map (· + (first.pruned wanted).length) := by
  rw [pieces_append, Pruned.removals_append, removals_prune_prepend, Nat.add_assoc,
    ← List.length_append, ← pruned, Pruned.removals_add]

end Layout

namespace Text

theorem exists_getLast?_mark {lines : List Line} {last : Line} (ends : lines.getLast? = some last)
    (removals : Array Nat) (offset : Nat) :
    ∃ marked, (MarkedLine.mark removals offset lines).getLast? = some marked ∧
      marked.line = last := by
  have found := congrArg List.getLast? (MarkedLine.map_line_mark removals offset lines)
  rw [List.getLast?_map, ends] at found
  simpa using found

/-- Blank lines of two texts collapse on their own if no run of them is common to both. -/
theorem collapse_append {first : Text} {gone later : List Nat} {last : Line}
    (ends : first.EndsLine) (last_line : first.lines.getLast? = some last)
    (shows : last.isBlank = false) (ordered : gone.Pairwise (· ≤ ·))
    (ordered_later : later.Pairwise (· ≤ ·)) (inside : ∀ p ∈ gone, p < first.length)
    (second : Text) :
    (first ++ second).collapse (gone ++ later.map (· + first.length)) =
      first.collapse gone ++ second.collapse later := by
  have ordered_all : (gone ++ later.map (· + first.length)).Pairwise (· ≤ ·) := by
    refine List.pairwise_append.mpr ⟨ordered, ?_, ?_⟩
    · rw [List.pairwise_map]
      exact ordered_later.imp fun le => Nat.add_le_add_right le _
    · intro p before q after
      obtain ⟨q, -, rfl⟩ := List.mem_map.mp after
      have := inside p before
      omega
  have marked_first : MarkedLine.mark (gone ++ later.map (· + first.length)).toArray 0 first.lines =
      MarkedLine.mark gone.toArray 0 first.lines := by
    apply MarkedLine.mark_congr
    intro before l after split passed
    have within : passed + l.text.length < first.length := by
      have ended := ending_ne_unfinished_of_endsLine ends l (by simp [split])
      have finished := Line.length_text_lt ended
      have whole := congrArg List.length (flatMap_render_lines first)
      simp only [split, List.flatMap_append, List.flatMap_cons, List.length_append] at whole
      simp only [Line.length] at finished
      omega
    apply holdsPosition_append_left ordered_all
    intro p among
    obtain ⟨p, -, rfl⟩ := List.mem_map.mp among
    omega
  have marked_second :
      MarkedLine.mark (gone ++ later.map (· + first.length)).toArray first.length second.lines =
        MarkedLine.mark later.toArray 0 second.lines := by
    apply MarkedLine.mark_congr
    intro before l after split passed
    rw [holdsPosition_append_right ordered_all, Nat.add_assoc,
      holdsPosition_map_add ordered_later, Nat.zero_add]
    intro p among
    exact Nat.lt_of_lt_of_le (inside p among) (Nat.le_add_right _ _)
  obtain ⟨marked, found, rfl⟩ := exists_getLast?_mark last_line gone.toArray 0
  rw [collapse_eq_text_foldl, collapse_eq_text_foldl, collapse_eq_text_foldl, lines_append ends,
    MarkedLine.mark_append, flatMap_render_lines, Nat.zero_add, marked_first, marked_second,
    Sweep.text_foldl_append found shows]

theorem EndsLine.of_getLast? {t : Text} (ends : t.getLast? = some (.char '\n')) : t.EndsLine := by
  intro g last
  exact Option.some.inj (last.symm.trans ends)

/-- A text can be pruned in two parts if the first part ends with a line feed and leaves
no opening bracket after its lists. To collapse blank lines as well, the first part must
keep something on its last line. -/
theorem prune_append (name : AttributeName) (collapse : Bool) {first : Text}
    (ends : first.getLast? = some (.char '\n'))
    (closed : .char '[' ∉ (Layout.ofText first).tail)
    (shows : collapse = true →
      ∃ last, (first.prune name false).text.lines.getLast? = some last ∧ last.isBlank = false)
    (second : Text) :
    (first ++ second).prune name collapse =
      ⟨(first.prune name collapse).text ++ (second.prune name collapse).text,
        (first.prune name collapse).removed + (second.prune name collapse).removed⟩ := by
  have laid := (LaidOut.ofText first).append ends closed (LaidOut.ofText second)
  have tail_ends := LaidOut.getLast?_tail ends (LaidOut.ofText first)
  simp only [prune_eq, ← laid.eq_ofText] at shows ⊢
  generalize Layout.ofText first = l at tail_ends shows ⊢
  generalize Layout.ofText second = m
  rw [Layout.total_prune_append, Layout.removals_prune_append, Layout.pruned_append]
  cases collapse with
  | false => rfl
  | true =>
      obtain ⟨last, last_line, shown⟩ := shows rfl
      have pruned_ends : (l.pruned name.text).getLast? = some (.char '\n') := by
        rw [Layout.pruned, List.getLast?_append, tail_ends]
        rfl
      have inside : ∀ p ∈ Pruned.removals 0 (l.prune name.text),
          p < (l.pruned name.text).length := by
        intro p among
        have bounds := Pruned.mem_removals_bounds among
        have tail_nonempty : 0 < l.tail.length :=
          List.length_pos_of_mem (List.mem_of_getLast? tail_ends)
        rw [Layout.pruned, List.length_append]
        omega
      have collapsed := collapse_append (EndsLine.of_getLast? pruned_ends) last_line shown
        (Pruned.pairwise_removals 0 (l.prune name.text))
        (Pruned.pairwise_removals 0 (m.prune name.text)) inside (m.pruned name.text)
      simp only [if_true, collapsed]

theorem prune_append_two_fields :
    let name : AttributeName := ⟨ofString "T", by decide +kernel⟩
    let first := ofString "[T]\n\nint a;\n"
    let second := ofString "[T, A]\n[T]\nint b;\n"
    (first ++ second).prune name true =
      ⟨(first.prune name true).text ++ (second.prune name true).text,
        (first.prune name true).removed + (second.prune name true).removed⟩ := by
  intro name first second
  have ends : first.getLast? = some (.char '\n') := by decide
  have closed : .char '[' ∉ (Layout.ofText first).tail := by decide +kernel
  have shows : ∃ last, (first.prune name false).text.lines.getLast? = some last ∧
      last.isBlank = false :=
    ⟨⟨ofString "int a;", .lf⟩, by decide +kernel⟩
  exact prune_append name true ends closed (fun _ => shows) second

end Text

end AttributeLists
