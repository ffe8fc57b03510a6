import LocalSat.Random.Generator

/-!
# Samples without repetition

`sample n k` draws `k` distinct numbers from `0 … n - 1` in random order. A sample that is a large part
of a large range comes from the end of a partial shuffle of the whole range; any other is collected one
number at a time, the largest candidate standing in for a number already taken, and then shuffled.

| here | there |
| --- | --- |
| `sample` | `choice` without replacement |
-/

namespace LocalSat.Random

open Generator

/-- Swaps each position from `i` down to `stop` with a random one at or below it. -/
def shuffleDown (stop : Nat) : Nat → Array Nat → Generator → Array Nat × Generator
  | 0, xs, g => (xs, g)
  | i + 1, xs, g =>
    if i + 1 < stop then (xs, g)
    else
      let (j, g) := g.below (i + 2)
      shuffleDown stop i (xs.swapIfInBounds (i + 1) j) g

/-- Adds to `taken` one number from each of the ranges `0 … j, 0 … j + 1, …`, `count` of them: a number
that is already taken is replaced by the largest of its range. -/
def collect : Nat → Nat → List Nat → Generator → List Nat × Generator
  | 0, _, taken, g => (taken, g)
  | count + 1, j, taken, g =>
    let (v, g) := g.below (j + 1)
    collect count (j + 1) ((if taken.contains v then j else v) :: taken) g

/-- A sample of `k` numbers from `0 … n - 1`, for `k ≤ n`. -/
def sample (n k : Nat) (g : Generator) : List Nat × Generator :=
  if 10000 < n ∧ n / 50 < k then
    let (xs, g) := shuffleDown (max (n - k) 1) (n - 1) (Array.range n) g
    (xs.toList.drop (n - k), g)
  else
    let (taken, g) := collect k (n - k) [] g
    let (xs, g) := shuffleDown 1 (k - 1) taken.reverse.toArray g
    (xs.toList, g)

end LocalSat.Random
