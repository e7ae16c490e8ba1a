/-
# Several attributes

Taking several attributes out is one run for each of them, on what the runs before it left.
The runs bring in no glyph but spaces, so a text without stray bytes stays without them.

Names can be checked before the first run or each when its turn comes (`pruneInTurn`): the
same name is refused, and if none is, the same entries are taken out.
-/

import Mathlib.Algebra.GroupWithZero.Nat
import AttributeLists.Proofs.Name.Attribute
import AttributeLists.Proofs.Prune.Conserved
import AttributeLists.Proofs.Prune.Convergence
import AttributeLists.Proofs.Text.Utf8

namespace AttributeLists.Text

/-- How many entries each of several attributes loses, taken out one after the other. -/
def losses (collapse : Bool) : List AttributeName → Text → List Nat
  | [], _ => []
  | name :: names, t =>
      let pruned := t.prune name collapse
      pruned.removed :: losses collapse names pruned.text

theorem removed_pruneAll (names : List AttributeName) (collapse : Bool) (t : Text) :
    (t.pruneAll names collapse).removed = (t.losses collapse names).sum := by
  induction names generalizing t with
  | nil => rfl
  | cons name names ih =>
      rw [pruneAll_cons, losses, List.sum_cons]
      exact congrArg _ (ih _)

theorem pruneAll_append (names others : List AttributeName) (collapse : Bool) (t : Text) :
    t.pruneAll (names ++ others) collapse =
      let first := t.pruneAll names collapse
      let later := first.text.pruneAll others collapse
      ⟨later.text, first.removed + later.removed⟩ := by
  rw [pruneAll, List.foldl_append, foldl_prune others]
  rfl

theorem pruneAll_eq_pruneEach (names : List AttributeName) (collapse : Bool) (t : Text) :
    t.pruneAll names collapse = t.pruneEach (names.map (·, collapse)) := by
  induction names generalizing t with
  | nil => rfl
  | cons name names ih =>
      simp only [pruneAll_cons, ih]
      rfl

/-- Runs one after the other bring in no glyph but spaces. -/
theorem mem_of_mem_text_pruneEach {runs : List (AttributeName × Bool)} {t : Text} {g : Glyph}
    (inside : g ∈ (t.pruneEach runs).text) : g ∈ t ∨ g = .char ' ' := by
  induction runs generalizing t with
  | nil => exact .inl inside
  | cons run runs ih =>
      rcases run with ⟨name, collapse⟩
      rcases ih inside with left | space
      · exact mem_of_mem_text_prune left
      · exact .inr space

theorem StrayFree.prune {t : Text} (free : t.StrayFree) (name : AttributeName)
    (collapse : Bool) : (t.prune name collapse).text.StrayFree := by
  intro g inside
  rcases mem_of_mem_text_prune inside with there | space
  · exact free g there
  · exact ⟨' ', space⟩

theorem StrayFree.pruneAll {t : Text} (free : t.StrayFree) (names : List AttributeName)
    (collapse : Bool) : (t.pruneAll names collapse).text.StrayFree := by
  induction names generalizing t with
  | nil => exact free
  | cons name names ih =>
      rw [pruneAll_cons]
      exact ih (free.prune name collapse)

/-- Take attributes out one after the other, and stop at the first one that is no name. -/
def pruneInTurn (collapse : Bool) : List Text → Pruned → Except InvalidName Pruned
  | [], done => .ok done
  | given :: rest, done => do
      let name ← AttributeName.ofText given
      let next := done.text.prune name collapse
      pruneInTurn collapse rest ⟨next.text, done.removed + next.removed⟩

/-- Checking all names first refuses the same one and takes the same entries out. -/
theorem pruneInTurn_eq (collapse : Bool) (attributes : List Text) (done : Pruned) :
    pruneInTurn collapse attributes done =
      (attributes.mapM AttributeName.ofText).map fun names =>
        let pruned := done.text.pruneAll names collapse
        ⟨pruned.text, done.removed + pruned.removed⟩ := by
  induction attributes generalizing done with
  | nil => rfl
  | cons given rest ih =>
      by_cases valid : isAttributeName given = true
      · let name : AttributeName := ⟨given, valid⟩
        have accepted : AttributeName.ofText given = .ok name := name.ofText_text
        have others := AttributeName.mapM_ofText_cons_of_accepted name rest
        rw [pruneInTurn, accepted, others]
        refine (ih _).trans ?_
        cases rest.mapM AttributeName.ofText with
        | error cause => rfl
        | ok names => simp only [Except.map, pruneAll_cons, Nat.add_assoc]
      · have refused : AttributeName.ofText given = .error ⟨.text given⟩ := dif_neg valid
        rw [pruneInTurn, refused, AttributeName.mapM_ofText_cons_of_refused valid]
        rfl

end AttributeLists.Text
