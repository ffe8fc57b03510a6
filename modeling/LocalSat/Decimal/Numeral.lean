import LocalSat.Text.Integer

/-!
# Reading real numerals

A real numeral has an optional sign, digits with an optional point among them, and an optional power of
ten; `inf`, `infinity` and `nan` are read in any case. The nearest double is its value.
-/

namespace LocalSat.Decimal

open LocalSat.Text

/-- The double nearest to `± n · 10^e`. Beyond the range of doubles the answer is an infinity or a
zero, which is decided before any large power is formed. -/
def nearest (negative : Bool) (n : Nat) (e : Int) : Float :=
  let size := ((Nat.toDigits 10 n).length : Int) + e
  let x : Float :=
    if n = 0 ∨ size < -400 then 0.0
    else if 400 < size then 1.0 / 0.0
    else Float.ofScientific n (e < 0) e.natAbs
  if negative then -x else x

/-- Splits off the sign. -/
def signed : List Char → Bool × List Char
  | '-' :: cs => (true, cs)
  | '+' :: cs => (false, cs)
  | cs => (false, cs)

/-- The exponent of a power of ten, or zero if there is none. -/
def power? : List Char → Option Int
  | [] => some 0
  | c :: cs =>
    if c == 'e' || c == 'E' then
      let (neg, ds) := signed cs
      (digits? ds).map fun ds => if neg then -(ofDigits ds : Int) else (ofDigits ds : Int)
    else none

/-- The value of an unsigned numeral: digits, a point with digits on at least one side of it, a power. -/
def unsigned? (negative : Bool) (cs : List Char) : Option Float := do
  let mark (c : Char) : Bool := c == 'e' || c == 'E'
  let body := cs.takeWhile (!mark ·)
  let e ← power? (cs.dropWhile (!mark ·))
  match pieces (· == '.') body with
  | [whole] => return nearest negative (ofDigits (← digits? whole)) e
  | [whole, rest] =>
    let ds ← if whole.isEmpty && !rest.isEmpty then some [] else digits? whole
    let rs ← if rest.isEmpty then some [] else digits? rest
    return nearest negative (ofDigits (ds ++ rs)) (e - rs.length)
  | _ => none

/-- Reads a real number, blanks around it allowed. -/
def readReal? (text : String) : Option Float :=
  let (negative, cs) := signed (strip text.toList)
  let word := String.ofList (cs.map Char.toLower)
  if word == "inf" || word == "infinity" then some (if negative then -(1.0 / 0.0) else 1.0 / 0.0)
  else if word == "nan" then some (0.0 / 0.0)
  else unsigned? negative cs

end LocalSat.Decimal
