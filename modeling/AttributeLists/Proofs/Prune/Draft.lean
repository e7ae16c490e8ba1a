/-
# What the laying down of a new text amounts to

A draft runs over the lists of a source text and copies lazily: a list that loses
nothing is passed over and reaches the new text later, inside a longer stretch of
source. `Draft.Covers` is what holds between two lists all the same. What has been
laid down and the stretch that waits are together what has become of the lists so
far, and the positions and the count belong to exactly these lists.

The outcome is `Text.prune_eq`: the new text is each gap followed by what becomes of
its list, and then the tail. How the draft cuts the source into stretches leaves no
trace in it.

Several attributes are taken out by one run after the other, whose counts add up.
-/

import Mathlib.Algebra.GroupWithZero.Nat
import AttributeLists.Prune.Basic
import AttributeLists.Proofs.Prune.BlankRun

namespace AttributeLists

namespace Layout

/-- The source of consecutive parts. -/
def partsSource (parts : List (Text × Bracketed)) : Text :=
  parts.flatMap fun part => part.1 ++ part.2.source

/-- What becomes of the lists of consecutive parts, each after its gap. -/
def pruneParts (wanted : Text) (parts : List (Text × Bracketed)) : List (Text × Pruned) :=
  parts.map fun part => (part.1, part.2.prune wanted)

@[simp]
theorem partsSource_nil : partsSource [] = [] := rfl

@[simp]
theorem partsSource_cons (gap : Text) (b : Bracketed) (parts : List (Text × Bracketed)) :
    partsSource ((gap, b) :: parts) = gap ++ (b.source ++ partsSource parts) := by
  simp [partsSource]

@[simp]
theorem partsSource_append (first second : List (Text × Bracketed)) :
    partsSource (first ++ second) = partsSource first ++ partsSource second :=
  List.flatMap_append

@[simp]
theorem pruneParts_nil (wanted : Text) : pruneParts wanted [] = [] := rfl

@[simp]
theorem pruneParts_cons (wanted gap : Text) (b : Bracketed) (parts : List (Text × Bracketed)) :
    pruneParts wanted ((gap, b) :: parts) = (gap, b.prune wanted) :: pruneParts wanted parts := rfl

@[simp]
theorem pruneParts_append (wanted : Text) (first second : List (Text × Bracketed)) :
    pruneParts wanted (first ++ second) = pruneParts wanted first ++ pruneParts wanted second :=
  List.map_append

end Layout

namespace Pruned

/-- The text of consecutive pieces, each after its gap. -/
def written (pieces : List (Text × Pruned)) : Text :=
  pieces.flatMap fun piece => piece.1 ++ piece.2.text

/-- The number of entries that were taken out of consecutive pieces. -/
def total (pieces : List (Text × Pruned)) : Nat :=
  (pieces.map fun piece => piece.2.removed).sum

/-- Entries were taken out and nothing is left. -/
def vanished (p : Pruned) : Bool :=
  p.removed != 0 && p.text.isEmpty

/-- The positions at which lists vanished, when pieces are laid down one after the
other from an offset on. -/
def removals (offset : Nat) : List (Text × Pruned) → List Nat
  | [] => []
  | (gap, piece) :: rest =>
      let position := offset + gap.length
      let after := removals (position + piece.text.length) rest
      if piece.vanished then position :: after else after

@[simp]
theorem written_nil : written [] = [] := rfl

@[simp]
theorem written_cons (gap : Text) (p : Pruned) (pieces : List (Text × Pruned)) :
    written ((gap, p) :: pieces) = gap ++ (p.text ++ written pieces) := by
  simp [written]

@[simp]
theorem written_append (first second : List (Text × Pruned)) :
    written (first ++ second) = written first ++ written second :=
  List.flatMap_append

@[simp]
theorem total_append (first second : List (Text × Pruned)) :
    total (first ++ second) = total first + total second := by
  simp [total]

theorem removals_append (offset : Nat) (first second : List (Text × Pruned)) :
    removals offset (first ++ second) =
      removals offset first ++ removals (offset + (written first).length) second := by
  induction first generalizing offset with
  | nil => simp [removals]
  | cons piece first ih =>
      rcases piece with ⟨gap, p⟩
      have tail := ih (offset + gap.length + p.text.length)
      have reached : offset + (written ((gap, p) :: first)).length =
          offset + gap.length + p.text.length + (written first).length := by
        simp only [written_cons, List.length_append]
        omega
      rw [reached]
      by_cases gone : p.vanished = true
      · simp [removals, gone, tail]
      · simp [removals, gone, tail]

theorem removals_add (offset shift : Nat) (pieces : List (Text × Pruned)) :
    removals (offset + shift) pieces = (removals offset pieces).map (· + shift) := by
  induction pieces generalizing offset with
  | nil => rfl
  | cons piece pieces ih =>
      rcases piece with ⟨gap, p⟩
      have tail := ih (offset + gap.length + p.text.length)
      have reached : offset + shift + gap.length = offset + gap.length + shift := by omega
      have passed : offset + gap.length + shift + p.text.length =
          offset + gap.length + p.text.length + shift := by omega
      by_cases gone : p.vanished = true
      · simp [removals, gone, reached, passed, tail]
      · simp [removals, gone, reached, passed, tail]

theorem mem_removals_bounds {offset position : Nat} {pieces : List (Text × Pruned)}
    (inside : position ∈ removals offset pieces) :
    offset ≤ position ∧ position ≤ offset + (written pieces).length := by
  induction pieces generalizing offset with
  | nil => contradiction
  | cons piece pieces ih =>
      rcases piece with ⟨gap, p⟩
      have later : position ∈ removals (offset + gap.length + p.text.length) pieces →
          offset ≤ position ∧ position ≤ offset + (written ((gap, p) :: pieces)).length := by
        intro inside
        have bounds := ih inside
        simp only [written_cons, List.length_append]
        omega
      by_cases gone : p.vanished = true
      · simp only [removals, gone, if_true, List.mem_cons] at inside
        rcases inside with rfl | inside
        · simp only [written_cons, List.length_append]
          omega
        · exact later inside
      · simp only [removals, gone, if_false, Bool.false_eq_true] at inside
        exact later inside

theorem pairwise_removals (offset : Nat) (pieces : List (Text × Pruned)) :
    (removals offset pieces).Pairwise (· ≤ ·) := by
  induction pieces generalizing offset with
  | nil => exact List.Pairwise.nil
  | cons piece pieces ih =>
      rcases piece with ⟨gap, p⟩
      by_cases gone : p.vanished = true
      · simp only [removals, gone, if_true]
        refine .cons ?_ (ih _)
        intro position inside
        have bounds := mem_removals_bounds inside
        omega
      · simpa [removals, gone] using ih _

end Pruned

namespace Bracketed

theorem text_prune_of_removed_eq_zero {wanted : Text} {b : Bracketed}
    (kept : (b.prune wanted).removed = 0) : (b.prune wanted).text = b.source := by
  unfold prune at kept ⊢
  split
  · rfl
  · rename_i entries found
    simp only [found] at kept
    split at kept
    · rename_i unremoved
      simp [unremoved]
    · contradiction

end Bracketed

namespace Draft

open Layout Pruned

/-- A draft that has dealt with the parts `done` at the front of its source. -/
structure Covers (wanted : Text) (done : List (Text × Bracketed)) (d : Draft) : Prop where
  /-- No list is cut by the end of what has been dealt with. -/
  taken_le : d.taken ≤ (partsSource done).length
  /-- The new text so far is laid down, but for a stretch of source that waits. -/
  pieces : d.pieces.toList.flatten ++ (partsSource done).drop d.taken =
    written (pruneParts wanted done)
  length : d.length = d.pieces.toList.flatten.length
  removals : d.removals.toList = Pruned.removals 0 (pruneParts wanted done)
  removed : d.removed = total (pruneParts wanted done)

theorem covers_start (wanted : Text) : Covers wanted [] start where
  taken_le := Nat.le_refl _
  pieces := rfl
  length := rfl
  removals := rfl
  removed := rfl

section Step

variable {wanted source more gap : Text} {b : Bracketed} {done : List (Text × Bracketed)}
  {d : Draft}

/-- A list that loses nothing is passed over, and the stretch that waits grows by its gap and
source. -/
theorem Covers.step_of_kept (covers : Covers wanted done d)
    (kept : (b.prune wanted).removed = 0) :
    Covers wanted (done ++ [(gap, b)])
      (d.step source wanted ((partsSource done).length + gap.length, b)) := by
  have stays : d.step source wanted ((partsSource done).length + gap.length, b) = d := by
    simp [Draft.step, kept]
  have text := Bracketed.text_prune_of_removed_eq_zero kept
  rw [stays]
  refine ⟨?_, ?_, covers.length, ?_, ?_⟩
  · have := covers.taken_le
    simp only [partsSource_append, List.length_append]
    omega
  · rw [partsSource_append, List.drop_append_of_le_length covers.taken_le,
      ← List.append_assoc, covers.pieces, pruneParts_append, pruneParts_cons, pruneParts_nil,
      written_append]
    simp [text]
  · simp [removals_append, covers.removals, Pruned.removals, vanished, kept]
  · simp [covers.removed, total, kept]

/-- In front of a list that loses something, what waited is copied up to the list. -/
theorem Covers.extract_before (covers : Covers wanted done d)
    (whole : source = partsSource done ++ (gap ++ (b.source ++ more))) :
    List.extract source d.taken ((partsSource done).length + gap.length) =
      (partsSource done).drop d.taken ++ gap := by
  have size : (partsSource done).length + gap.length - d.taken =
      ((partsSource done).drop d.taken ++ gap).length := by
    have := covers.taken_le
    simp only [List.length_append, List.length_drop]
    omega
  rw [List.extract_eq_take_drop, whole, List.drop_append_of_le_length covers.taken_le,
    ← List.append_assoc, size, List.take_left]

/-- A list that loses something is laid down behind what waited, and nothing waits behind it. -/
theorem Covers.step_of_changed (covers : Covers wanted done d)
    (whole : source = partsSource done ++ (gap ++ (b.source ++ more)))
    (changed : (b.prune wanted).removed ≠ 0) :
    Covers wanted (done ++ [(gap, b)])
      (d.step source wanted ((partsSource done).length + gap.length, b)) := by
  have laid : d.pieces.toList.flatten ++ ((partsSource done).drop d.taken ++ gap) =
      written (pruneParts wanted done) ++ gap := by
    rw [← List.append_assoc, covers.pieces]
  have position : d.length + ((partsSource done).drop d.taken ++ gap).length =
      (written (pruneParts wanted done)).length + gap.length := by
    rw [covers.length, ← List.length_append, laid, List.length_append]
  simp only [Draft.step, changed, if_false, covers.extract_before whole, position]
  refine ⟨?_, ?_, ?_, ?_, ?_⟩
  · simp only [partsSource_append, partsSource_cons, partsSource_nil, List.length_append,
      List.length_nil]
    omega
  · have nothing : (partsSource (done ++ [(gap, b)])).drop
        ((partsSource done).length + gap.length + b.source.length) = [] := by
      apply List.drop_eq_nil_of_le
      simp only [partsSource_append, partsSource_cons, partsSource_nil, List.length_append,
        List.length_nil]
      omega
    rw [nothing, pruneParts_append, pruneParts_cons, pruneParts_nil, written_append,
      List.append_nil, written_cons, written_nil, List.append_nil, ← List.append_assoc, ← laid]
    simp
  · have size := congrArg List.length laid
    simp only [List.length_append] at size
    simp only [Array.toList_push, List.flatten_append, List.flatten_cons, List.flatten_nil,
      List.length_append, List.length_nil]
    omega
  · rw [pruneParts_append, pruneParts_cons, pruneParts_nil, removals_append, ← covers.removals]
    by_cases gone : (b.prune wanted).text.isEmpty = true
    · simp [Pruned.removals, vanished, changed, gone]
    · simp [Pruned.removals, vanished, gone]
  · simp [covers.removed, total]

/-- One more list keeps the draft in step with its source. -/
theorem Covers.step (covers : Covers wanted done d)
    (whole : source = partsSource done ++ (gap ++ (b.source ++ more))) :
    Covers wanted (done ++ [(gap, b)])
      (d.step source wanted ((partsSource done).length + gap.length, b)) := by
  by_cases kept : (b.prune wanted).removed = 0
  · exact covers.step_of_kept kept
  · exact covers.step_of_changed whole kept

end Step

/-- A run over the lists that are left keeps the draft in step with its source. -/
theorem Covers.foldl {wanted source tail : Text} {done rest : List (Text × Bracketed)}
    {d : Draft} (covers : Covers wanted done d)
    (whole : source = partsSource (done ++ rest) ++ tail) :
    Covers wanted (done ++ rest)
      ((startsFrom (partsSource done).length rest).foldl (Draft.step source wanted) d) := by
  induction rest generalizing done d with
  | nil => simpa [startsFrom] using covers
  | cons part rest ih =>
      rcases part with ⟨gap, b⟩
      have front : source =
          partsSource done ++ (gap ++ (b.source ++ (partsSource rest ++ tail))) := by
        simpa using whole
      have reached : (partsSource (done ++ [(gap, b)])).length =
          (partsSource done).length + gap.length + b.source.length := by
        simp only [partsSource_append, partsSource_cons, partsSource_nil, List.length_append,
          List.length_nil]
        omega
      have run := ih (covers.step front) (by simpa using whole)
      rw [reached, List.append_assoc] at run
      exact run

theorem Covers.text_eq {wanted : Text} {parts : List (Text × Bracketed)} {d : Draft}
    (covers : Covers wanted parts d) (tail : Text) :
    d.text (partsSource parts ++ tail) = written (pruneParts wanted parts) ++ tail := by
  rw [Draft.text, List.drop_append_of_le_length covers.taken_le]
  simp [← covers.pieces]

end Draft

namespace Layout

/-- What becomes of the lists of a layout, each after its gap. -/
def prune (wanted : Text) (l : Layout) : List (Text × Pruned) :=
  pruneParts wanted l.parts

/-- The text of a layout once its lists have been pruned. -/
def pruned (wanted : Text) (l : Layout) : Text :=
  Pruned.written (l.prune wanted) ++ l.tail

theorem source_eq (l : Layout) : l.source = partsSource l.parts ++ l.tail := rfl

end Layout

namespace Pruned

private theorem written_of_total_eq_zero {wanted : Text} {parts : List (Text × Bracketed)}
    (unremoved : total (Layout.pruneParts wanted parts) = 0) :
    written (Layout.pruneParts wanted parts) = Layout.partsSource parts := by
  induction parts with
  | nil => rfl
  | cons part parts ih =>
      rcases part with ⟨gap, b⟩
      simp only [total, Layout.pruneParts, List.map_cons, List.sum_cons,
        Nat.add_eq_zero_iff] at unremoved
      have text := Bracketed.text_prune_of_removed_eq_zero unremoved.1
      have rest := ih unremoved.2
      simp only [Layout.pruneParts] at rest
      simp [Layout.pruneParts, text, rest]

private theorem removals_of_total_eq_zero {pieces : List (Text × Pruned)} (offset : Nat)
    (unremoved : total pieces = 0) : removals offset pieces = [] := by
  induction pieces generalizing offset with
  | nil => rfl
  | cons piece pieces ih =>
      rcases piece with ⟨gap, p⟩
      simp only [total, List.map_cons, List.sum_cons, Nat.add_eq_zero_iff] at unremoved
      simp [removals, vanished, unremoved.1, ih _ unremoved.2]

end Pruned

namespace Draft

/-- The draft after the last list of a text. -/
def ofText (wanted t : Text) : Draft :=
  (Layout.ofText t).starts.foldl (Draft.step t wanted) start

/-- The run over a whole text deals with all its lists. -/
theorem covers_ofText (wanted t : Text) :
    Covers wanted (Layout.ofText t).parts (ofText wanted t) := by
  have whole : t = Layout.partsSource ([] ++ (Layout.ofText t).parts) ++ (Layout.ofText t).tail :=
    (Layout.source_ofText t).symm
  exact (covers_start wanted).foldl whole

theorem text_ofText (wanted t : Text) :
    (ofText wanted t).text t = (Layout.ofText t).pruned wanted := by
  have text := (covers_ofText wanted t).text_eq (Layout.ofText t).tail
  rwa [← Layout.source_eq, Layout.source_ofText] at text

end Draft

/-- The new text is what becomes of the layout piece by piece, collapsed at the
positions where lists vanished; and every entry taken out of a list counts. -/
theorem Text.prune_eq (name : AttributeName) (collapse : Bool) (t : Text) :
    t.prune name collapse =
      let l := Layout.ofText t
      ⟨if collapse then (l.pruned name.text).collapse (Pruned.removals 0 (l.prune name.text))
        else l.pruned name.text, Pruned.total (l.prune name.text)⟩ := by
  have covers := Draft.covers_ofText name.text t
  have text := Draft.text_ofText name.text t
  rw [Draft.ofText] at covers text
  unfold prune
  generalize (Layout.ofText t).starts.foldl (Draft.step t name.text) Draft.start = d at covers text
  dsimp only
  rw [text, covers.removed, covers.removals]
  by_cases unremoved : Pruned.total (Layout.pruneParts name.text (Layout.ofText t).parts) = 0
  · -- Nothing is taken out, so the layout is put together again as it was.
    have same : (Layout.ofText t).pruned name.text = t := by
      rw [Layout.pruned, Layout.prune, Pruned.written_of_total_eq_zero unremoved,
        ← Layout.source_eq, Layout.source_ofText]
    rw [if_pos unremoved, Layout.prune, unremoved,
      Pruned.removals_of_total_eq_zero 0 unremoved, same, collapse_nil, ite_self]
  · rw [if_neg unremoved]
    cases collapse with
    | false => rfl
    | true =>
        by_cases kept : d.removals.isEmpty = true
        · have empty :
              Pruned.removals 0 (Layout.pruneParts name.text (Layout.ofText t).parts) = [] := by
            rw [← covers.removals]
            simpa using kept
          simp [kept, empty, collapse_nil, Layout.prune]
        · simp [kept, Layout.prune]

/-- With collapsing, the text that is kept without it is collapsed at the positions that the
draft has noted. -/
theorem Text.prune_true_eq (name : AttributeName) (t : Text) :
    t.prune name true =
      ⟨(t.prune name false).text.collapse (Draft.ofText name.text t).removals.toList,
        (t.prune name false).removed⟩ := by
  rw [(Draft.covers_ofText name.text t).removals, prune_eq, prune_eq]
  rfl

/-- What holds of the layout without the attribute and survives collapsing holds of the
new text. -/
theorem Text.text_prune_of_pruned {P : Text → Prop} {name : AttributeName} {collapse : Bool}
    {t : Text} (pruned : P ((Layout.ofText t).pruned name.text))
    (collapsed : ∀ u removals, P u → P (u.collapse removals)) :
    P (t.prune name collapse).text := by
  rw [prune_eq]
  cases collapse with
  | false => exact pruned
  | true => exact collapsed _ _ pruned

/-- A run that takes nothing out leaves the text as it is. -/
theorem Text.prune_of_removed_eq_zero {name : AttributeName} {collapse : Bool} {t : Text}
    (unremoved : (t.prune name collapse).removed = 0) : t.prune name collapse = ⟨t, 0⟩ := by
  unfold prune at unremoved ⊢
  dsimp only at unremoved ⊢
  split
  · rfl
  · rename_i removed
    rw [if_neg removed] at unremoved
    contradiction

namespace Text

variable (names : List AttributeName) (collapse : Bool)

theorem foldl_prune (done : Pruned) :
    names.foldl
        (fun done name =>
          let next := prune name collapse done.text
          ⟨next.text, done.removed + next.removed⟩)
        done =
      ⟨(done.text.pruneAll names collapse).text,
        done.removed + (done.text.pruneAll names collapse).removed⟩ := by
  induction names generalizing done with
  | nil => rfl
  | cons name names ih =>
      rw [pruneAll, List.foldl_cons, List.foldl_cons, ih, ih]
      simp only [Nat.zero_add, Nat.add_assoc]

/-- The first attribute is taken out of the text, the others out of what this leaves. -/
theorem pruneAll_cons (name : AttributeName) (t : Text) :
    t.pruneAll (name :: names) collapse =
      let first := t.prune name collapse
      let later := first.text.pruneAll names collapse
      ⟨later.text, first.removed + later.removed⟩ := by
  rw [pruneAll, List.foldl_cons, foldl_prune]
  simp only [Nat.zero_add]

theorem text_pruneAll (t : Text) :
    (t.pruneAll names collapse).text =
      names.foldl (fun u name => (u.prune name collapse).text) t := by
  induction names generalizing t with
  | nil => rfl
  | cons name names ih =>
      rw [pruneAll_cons]
      exact ih _

variable {names collapse}

/-- A text from which none of the attributes is taken out stays as it is. -/
theorem text_pruneAll_of_removed_eq_zero {t : Text}
    (unremoved : (t.pruneAll names collapse).removed = 0) :
    (t.pruneAll names collapse).text = t := by
  induction names generalizing t with
  | nil => rfl
  | cons name names ih =>
      rw [pruneAll_cons] at unremoved ⊢
      obtain ⟨first, later⟩ := Nat.add_eq_zero_iff.mp unremoved
      have same : (t.prune name collapse).text = t := by
        rw [prune_of_removed_eq_zero first]
      simp only [same] at later ⊢
      exact ih later

end Text

end AttributeLists
