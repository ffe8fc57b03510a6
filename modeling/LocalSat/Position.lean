/-!
# Positions in a sequence

An index below zero counts from the end, so a sequence of `n` entries has the indices `-n … n - 1`.
`position?` resolves an index; main statement: it does so exactly on that range (`position?_isSome`).
-/

namespace LocalSat

/-- The position that an index names among `size` entries. -/
def position? (size : Nat) (index : Int) : Option Nat :=
  if 0 ≤ index then (if index < size then some index.toNat else none)
  else if -(size : Int) ≤ index then some (index + size).toNat else none

theorem position?_lt {size p : Nat} {index : Int} (h : position? size index = some p) : p < size := by
  unfold position? at h
  split at h <;> split at h <;> simp at h <;> omega

theorem position?_isSome {size : Nat} {index : Int} :
    (position? size index).isSome ↔ -(size : Int) ≤ index ∧ index < size := by
  unfold position?
  split <;> split <;> simp <;> omega

theorem position?_natCast {size i : Nat} (h : i < size) : position? size (i : Int) = some i := by
  simp [position?, h]

/-- An index beyond a sequence. -/
inductive OutOfRange where
  /-- Beyond a list of values. -/
  | list
  /-- Beyond the clauses of a formula. -/
  | clause
  /-- Beyond an assignment of the given size. -/
  | assignment (index : Int) (size : Nat)
deriving DecidableEq, Repr

end LocalSat
