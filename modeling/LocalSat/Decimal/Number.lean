import LocalSat.Decimal.Binary

/-!
# Numbers: integers and doubles together

Integers and doubles are compared by their exact values; not-a-number is on neither side of anything.
-/

namespace LocalSat.Decimal

/-- An integer or a double. -/
inductive Number where
  | int (n : Int)
  | real (x : Float)
deriving Repr

/-- The exact value of a finite double as a fraction. -/
def Binary.fraction (b : Binary) : Int × Nat :=
  let (num, den) := scaled b.mantissa b.exponent 0
  (if b.negative then -(num : Int) else num, den)

theorem Binary.natAbs_fraction (b : Binary) :
    b.fraction.1.natAbs = b.mantissa * Nat.pow 2 b.exponent.toNat := by
  have hone : Nat.pow 10 (Int.toNat 0) = 1 := rfl
  simp only [fraction, scaled, Int.neg_zero, hone, Nat.mul_one]
  split <;> simp only [Int.natAbs_neg, Int.natAbs_natCast]

theorem Binary.fraction_pos (b : Binary) : 0 < b.fraction.2 :=
  Nat.mul_pos (Nat.pow_pos (by decide)) (Nat.pow_pos (by decide))

/-- Whether the integer `n` is at least the double `x`. -/
def intGeReal (n : Int) (x : Float) : Bool :=
  match Binary.ofFloat? x with
  | some b => let (p, q) := b.fraction; p ≤ n * q
  | none => !x.isNaN && x < 0

/-- Whether the double `x` is at least the integer `n`. -/
def realGeInt (x : Float) (n : Int) : Bool :=
  match Binary.ofFloat? x with
  | some b => let (p, q) := b.fraction; n * q ≤ p
  | none => !x.isNaN && 0 < x

/-- Whether a count has come up to the number. -/
def Number.atMostNat (a : Number) (n : Nat) : Bool :=
  match a with
  | .int m => m ≤ n
  | .real x => intGeReal n x

/-- Whether a duration has come up to the number. -/
def Number.atMostReal (a : Number) (t : Float) : Bool :=
  match a with
  | .int m => realGeInt t m
  | .real x => x ≤ t

/-- The double nearest to `a / b`, for positive `b`. -/
def ratioNat (a b : Nat) : Float :=
  if a = 0 then 0.0
  else
    let e : Int := (Nat.log2 a : Int) - Nat.log2 b
    let fits (q : Int) : Bool := let (num, den) := scaled 1 q 0; num * b ≤ a * den
    let q := (if fits e then e else e - 1) - 52
    let (num, den) := scaled a (-q) 0
    (Float.ofNat (roundDiv num (den * b))).scaleB q

/-- The double nearest to `a / b`, for `b` other than zero. -/
def ratio (a b : Int) : Float :=
  let x := ratioNat a.natAbs b.natAbs
  if (a < 0) != (b < 0) then -x else x

end LocalSat.Decimal
