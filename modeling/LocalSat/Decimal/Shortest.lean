import LocalSat.Decimal.Binary

/-!
# The shortest decimal that reads back

Among the decimals with the fewest digits that lie in the interval of reals rounding to a given double,
the nearest one. The interval's ends belong to it exactly when the mantissa is even.
-/

namespace LocalSat.Decimal

/-- The value `digits · 10^exponent`. -/
structure Scaled where
  digits : Nat
  exponent : Int
deriving DecidableEq, Repr

/-- Whether `n · 10^e` rounds to `m · 2^q`. Below the least mantissa of a binade the numbers lie twice
as close. -/
def readsBack (m : Nat) (q : Int) (n : Nat) (e : Int) : Bool :=
  let below := if m = Nat.pow 2 52 ∧ -1074 < q then 1 else 2
  let (low, den) := scaled (4 * m - below) (q - 2) e
  let (high, _) := scaled (4 * m + 2) (q - 2) e
  if m % 2 = 0 then low ≤ n * den && n * den ≤ high
  else low < n * den && n * den < high

/-- The decimal on the grid of multiples of `10^e` that reads back as `m · 2^q`, the nearer of two. -/
def onGrid? (m : Nat) (q e : Int) : Option Scaled :=
  let v := scaled m q e
  let n := v.1 / v.2
  match readsBack m q n e, readsBack m q (n + 1) e with
  | true, true => some ⟨roundDiv v.1 v.2, e⟩
  | true, false => some ⟨n, e⟩
  | false, true => some ⟨n + 1, e⟩
  | false, false => none

/-- The shortest decimal that reads back as `m · 2^q`, for positive `m`. Seventeen digits always
suffice. -/
def shortest (m : Nat) (q : Int) : Scaled :=
  let k := magnitude m q
  let grid (d : Nat) : Option Scaled := onGrid? m q (k - (d + 1))
  ((List.range 17).findSome? grid).getD ⟨roundDiv (scaled m q (k - 17)).1 (scaled m q (k - 17)).2, k - 17⟩

end LocalSat.Decimal
