/-
# Search in increasing positions

The first of several positions that is not below a bound, found by halving. The
answer is meaningful only for positions that do not decrease.
-/

namespace AttributeLists

/-- Halve the stretch from `low` to `high` until it is empty. -/
def lowerBoundIn (positions : Array Nat) (bound low high : Nat)
    (within : high ≤ positions.size) : Nat :=
  if nonempty : low < high then
    let middle := (low + high) / 2
    if positions[middle] < bound then
      lowerBoundIn positions bound (middle + 1) high within
    else
      lowerBoundIn positions bound low middle (by omega)
  else low
termination_by high - low

/-- The number of leading positions below a bound, which is the index of the first
position that is not below it. -/
def lowerBound (positions : Array Nat) (bound : Nat) : Nat :=
  lowerBoundIn positions bound 0 positions.size (Nat.le_refl _)

/-- Whether some position lies between two bounds, both included. -/
def holdsPosition (positions : Array Nat) (first last : Nat) : Bool :=
  match positions[lowerBound positions first]? with
  | some position => position ≤ last
  | none => false

end AttributeLists
