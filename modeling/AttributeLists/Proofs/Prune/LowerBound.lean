/-
# What the search in increasing positions finds

Halving keeps two facts: everything to the left of the stretch is below the bound
and nothing to the right of it is. When the stretch is empty they meet, so a single
look at the position found answers whether any position lies between two bounds.
-/

import AttributeLists.Prune.LowerBound

namespace AttributeLists

/-- Positions that do not decrease. -/
def Increasing (positions : Array Nat) : Prop :=
  ∀ i j (hi : i < positions.size) (hj : j < positions.size), i ≤ j → positions[i] ≤ positions[j]

theorem increasing_of_pairwise {positions : Array Nat}
    (ordered : positions.toList.Pairwise (· ≤ ·)) : Increasing positions := by
  intro i j hi hj le
  rcases Nat.lt_or_eq_of_le le with lt | rfl
  · exact List.pairwise_iff_getElem.mp ordered i j hi hj lt
  · exact Nat.le_refl _

/-- The halving search ends where the positions below the bound end. -/
theorem lowerBoundIn_spec {positions : Array Nat} {bound low high : Nat}
    {within : high ≤ positions.size} (increasing : Increasing positions)
    (ordered : low ≤ high)
    (left : ∀ i (hi : i < positions.size), i < low → positions[i] < bound)
    (right : ∀ i (hi : i < positions.size), high ≤ i → bound ≤ positions[i]) :
    ∀ i (hi : i < positions.size),
      positions[i] < bound ↔ i < lowerBoundIn positions bound low high within := by
  fun_induction lowerBoundIn positions bound low high within with
  | case1 low high within nonempty middle below ih =>
      apply ih (by omega) ?_ right
      intro i hi before
      have := increasing i middle hi (by omega) (by omega)
      omega
  | case2 low high within nonempty middle above ih =>
      apply ih (by omega) left
      intro i hi after
      have := increasing middle i (by omega) hi after
      omega
  | case3 low high within empty =>
      intro i hi
      constructor
      · intro below
        apply Nat.lt_of_not_le
        intro after
        have := right i hi (by omega)
        omega
      · exact left i hi

/-- Looking at one position answers for all of them. -/
theorem holdsPosition_iff {positions : Array Nat} (increasing : Increasing positions)
    (first last : Nat) :
    holdsPosition positions first last = true ↔
      ∃ position ∈ positions, first ≤ position ∧ position ≤ last := by
  have found : ∀ i (hi : i < positions.size),
      positions[i] < first ↔ i < lowerBound positions first :=
    lowerBoundIn_spec increasing (Nat.zero_le _) (by omega) (by omega)
  unfold holdsPosition
  constructor
  · intro holds
    split at holds
    · rename_i position at_bound
      obtain ⟨hi, rfl⟩ := Array.getElem?_eq_some_iff.mp at_bound
      refine ⟨_, Array.getElem_mem hi, ?_, by simpa using holds⟩
      apply Nat.le_of_not_lt
      intro below
      exact absurd ((found _ hi).mp below) (Nat.lt_irrefl _)
    · contradiction
  · intro between
    rcases between with ⟨position, inside, above, below⟩
    obtain ⟨i, hi, rfl⟩ := Array.getElem_of_mem inside
    have reached : lowerBound positions first ≤ i := by
      apply Nat.le_of_not_lt
      intro before
      have := (found i hi).mpr before
      omega
    have within : lowerBound positions first < positions.size := by omega
    have least := increasing _ i within hi reached
    rw [Array.getElem?_eq_getElem within]
    simp only [decide_eq_true_eq]
    omega

section Listed

variable {front back positions : List Nat} {first last : Nat}

theorem holdsPosition_toArray_iff (ordered : positions.Pairwise (· ≤ ·)) :
    holdsPosition positions.toArray first last = true ↔
      ∃ position ∈ positions, first ≤ position ∧ position ≤ last := by
  have increasing : Increasing positions.toArray := increasing_of_pairwise ordered
  rw [holdsPosition_iff increasing]
  simp only [List.mem_toArray]

/-- Halving finds what a look at every position finds. -/
theorem holdsPosition_eq_any (ordered : positions.Pairwise (· ≤ ·)) :
    holdsPosition positions.toArray first last =
      positions.any fun position => first ≤ position && position ≤ last := by
  rw [Bool.eq_iff_iff, holdsPosition_toArray_iff ordered]
  simp

theorem holdsPosition_append_left (ordered : (front ++ back).Pairwise (· ≤ ·))
    (beyond : ∀ position ∈ back, last < position) :
    holdsPosition (front ++ back).toArray first last = holdsPosition front.toArray first last := by
  have outside : (back.any fun position => first ≤ position && position ≤ last) = false := by
    rw [List.any_eq_false]
    intro position inside
    have := beyond position inside
    simp only [Bool.and_eq_true, decide_eq_true_eq]
    omega
  rw [holdsPosition_eq_any ordered, holdsPosition_eq_any (List.pairwise_append.mp ordered).1,
    List.any_append, outside, Bool.or_false]

theorem holdsPosition_append_right (ordered : (front ++ back).Pairwise (· ≤ ·))
    (before : ∀ position ∈ front, position < first) :
    holdsPosition (front ++ back).toArray first last = holdsPosition back.toArray first last := by
  have outside : (front.any fun position => first ≤ position && position ≤ last) = false := by
    rw [List.any_eq_false]
    intro position inside
    have := before position inside
    simp only [Bool.and_eq_true, decide_eq_true_eq]
    omega
  rw [holdsPosition_eq_any ordered, holdsPosition_eq_any (List.pairwise_append.mp ordered).2.1,
    List.any_append, outside, Bool.false_or]

theorem holdsPosition_map_add (ordered : positions.Pairwise (· ≤ ·)) (shift : Nat) :
    holdsPosition (positions.map (· + shift)).toArray (shift + first) (shift + last) =
      holdsPosition positions.toArray first last := by
  have ordered_map : (positions.map (· + shift)).Pairwise (· ≤ ·) := by
    rw [List.pairwise_map]
    exact ordered.imp fun le => Nat.add_le_add_right le shift
  rw [holdsPosition_eq_any ordered_map, holdsPosition_eq_any ordered, List.any_map]
  simp [Function.comp_def, Nat.add_comm shift]

end Listed

end AttributeLists
