/-!
# Binary floating point, exactly

A finite double is `± m · 2^q` with natural `m`. `Binary.ofFloat?` reads the three fields off the
bits, and `scaled` writes the value, divided by a power of ten, as a fraction of naturals, so that every
decimal question about it is one about naturals.
-/

namespace LocalSat.Decimal

/-- The value `± mantissa · 2^exponent`. -/
structure Binary where
  negative : Bool
  mantissa : Nat
  exponent : Int
deriving DecidableEq, Repr

/-- The value of a finite double; infinities and not-a-numbers have none. -/
def Binary.ofFloat? (x : Float) : Option Binary :=
  let bits := x.toBits.toNat
  let negative := bits / Nat.pow 2 63 == 1
  let e : Nat := bits / Nat.pow 2 52 % 2048
  let f : Nat := bits % Nat.pow 2 52
  if e = 2047 then none
  else if e = 0 then some ⟨negative, f, -1074⟩
  else some ⟨negative, f + Nat.pow 2 52, (e : Int) - 1075⟩

/-- No finite double has a mantissa of more than 53 bits or a larger exponent. -/
theorem Binary.ofFloat?_bounds {x : Float} {b : Binary} (h : Binary.ofFloat? x = some b) :
    b.mantissa < Nat.pow 2 53 ∧ b.exponent ≤ 971 := by
  have he : x.toBits.toNat / Nat.pow 2 52 % 2048 < 2048 := Nat.mod_lt _ (by decide)
  have hf : x.toBits.toNat % Nat.pow 2 52 < Nat.pow 2 52 := Nat.mod_lt _ (by decide)
  have hdouble : Nat.pow 2 52 + Nat.pow 2 52 = Nat.pow 2 53 := by decide
  simp only [Binary.ofFloat?] at h
  split at h
  · cases h
  · split at h
    · cases h
      exact ⟨by simp only; omega, by simp⟩
    · cases h
      exact ⟨by simp only; omega, by simp only; omega⟩

theorem mul_pow_lt {m e k n : Nat} (h : m < Nat.pow 2 k) (hn : k + e ≤ n) :
    m * Nat.pow 2 e < Nat.pow 2 n :=
  calc m * Nat.pow 2 e < Nat.pow 2 k * Nat.pow 2 e := Nat.mul_lt_mul_of_pos_right h (Nat.pow_pos (by decide))
    _ = Nat.pow 2 (k + e) := (Nat.pow_add 2 k e).symm
    _ ≤ Nat.pow 2 n := Nat.pow_le_pow_right (by decide) hn

/-- Numerator and denominator of `m · 2^q / 10^e`. -/
def scaled (m : Nat) (q e : Int) : Nat × Nat :=
  (m * Nat.pow 2 q.toNat * Nat.pow 10 (-e).toNat, Nat.pow 2 (-q).toNat * Nat.pow 10 e.toNat)

/-- Number of decimal digits of a natural. -/
def width (n : Nat) : Nat := (Nat.toDigits 10 n).length

/-- The `k` with `10^(k-1) ≤ m · 2^q < 10^k`, for positive `m`. -/
def magnitude (m : Nat) (q : Int) : Int :=
  let (num, den) := scaled m q 0
  let k := (width num : Int) - width den
  let (num, den) := scaled m q k
  if den ≤ num then k + 1 else k

/-- The nearest natural to `num / den`; a half goes to the even neighbour. -/
def roundDiv (num den : Nat) : Nat :=
  let n := num / den
  let r := num % den
  if 2 * r < den then n
  else if den < 2 * r then n + 1
  else if n % 2 = 0 then n else n + 1

/-- A rounded quotient is at most a half off. -/
theorem roundDiv_within (num : Nat) {den : Nat} (h : 0 < den) :
    2 * num ≤ 2 * (den * roundDiv num den) + den ∧ 2 * (den * roundDiv num den) ≤ 2 * num + den := by
  have hdiv : den * (num / den) + num % den = num := Nat.div_add_mod num den
  have hmod : num % den < den := Nat.mod_lt num h
  have hsucc : den * (num / den + 1) = den * (num / den) + den := Nat.mul_succ den (num / den)
  simp only [roundDiv]
  split
  case isTrue => omega
  case isFalse =>
    split
    case isTrue => omega
    case isFalse => split <;> omega

/-- A rounded quotient is no larger than the numerator. -/
theorem roundDiv_le (num : Nat) {den : Nat} (h : 0 < den) : roundDiv num den ≤ num := by
  refine Nat.le_of_not_lt fun hlt => ?_
  have hwithin := (roundDiv_within num h).2
  have hmul : den * (num + 1) ≤ den * roundDiv num den := Nat.mul_le_mul_left den (by omega)
  have hnum : num ≤ den * num := Nat.le_mul_of_pos_left num h
  rw [Nat.mul_succ] at hmul
  omega

end LocalSat.Decimal
