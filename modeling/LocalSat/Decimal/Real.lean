import LocalSat.Decimal.Shortest

/-!
# Writing real numbers

Two ways to write a double: `shortText`, the fewest digits that read back, and `fixedText`, a given
number of places after the point. A `RealStyle` holds what differs between the outputs that use the
first: the names of the values that are no number, and the look of the power of ten.
-/

namespace LocalSat.Decimal

/-- What an output decides about the spelling of its real numbers. -/
structure RealStyle where
  /-- Spelling of not-a-number. -/
  nan : String
  /-- Spelling of infinity, without sign. -/
  infinity : String
  /-- Whether a single digit before a power of ten is followed by a point and a zero. -/
  pointBeforePower : Bool
deriving DecidableEq, Repr

/-- In running text and in tables: `1e+22`, `nan`, `inf`. -/
def RealStyle.plain : RealStyle := ⟨"nan", "inf", false⟩

/-- Zeros in front of a numeral shorter than `n`. -/
def padLeft (n : Nat) (c : Char) (s : String) : String :=
  String.ofList (List.replicate (n - s.length) c) ++ s

/-- A power of ten: a sign and at least two digits. -/
def powerText (e : Int) : String :=
  (if e < 0 then "e-" else "e+") ++ padLeft 2 '0' (toString e.natAbs)

/-- The digits of a positive decimal without trailing zeros, and the exponent of the first digit. -/
def significant (s : Scaled) : List Char × Int :=
  let ds := Nat.toDigits 10 s.digits
  ((ds.reverse.dropWhile (· == '0')).reverse, s.exponent + ds.length - 1)

/-- A positive decimal: with a power of ten below `10^-4` and from `10^16` on, else positional with at
least one place. -/
def decimalText (style : RealStyle) (s : Scaled) : String :=
  let (ds, e) := significant s
  if e < -4 ∨ 16 ≤ e then
    let rest := String.ofList (ds.drop 1)
    let point := if rest.isEmpty then (if style.pointBeforePower then ".0" else "") else "." ++ rest
    String.ofList (ds.take 1) ++ point ++ powerText e
  else if e < 0 then
    "0." ++ String.ofList (List.replicate (-e - 1).toNat '0' ++ ds)
  else
    let whole := ds.take (e.toNat + 1)
    let rest := ds.drop (e.toNat + 1)
    String.ofList (whole ++ List.replicate (e.toNat + 1 - whole.length) '0') ++ "."
      ++ (if rest.isEmpty then "0" else String.ofList rest)

/-- A double in the fewest digits that read back. -/
def shortText (style : RealStyle) (x : Float) : String :=
  match Binary.ofFloat? x with
  | none => if x.isNaN then style.nan else if x < 0 then "-" ++ style.infinity else style.infinity
  | some b =>
    let body := if b.mantissa = 0 then "0.0" else decimalText style (shortest b.mantissa b.exponent)
    if b.negative then "-" ++ body else body

/-- `n / 10^places` with that many digits after the point. -/
def placesText (places n : Nat) : String :=
  let ds := (padLeft (places + 1) '0' (toString n)).toList
  let cut := ds.length - places
  if places = 0 then String.ofList ds
  else String.ofList (ds.take cut) ++ "." ++ String.ofList (ds.drop cut)

/-- A double with a fixed number of digits after the point, a half going to the even neighbour. -/
def fixedText (places : Nat) (x : Float) : String :=
  match Binary.ofFloat? x with
  | none => if x.isNaN then "nan" else if x < 0 then "-inf" else "inf"
  | some b =>
    let (num, den) := scaled b.mantissa b.exponent (-places)
    let body := placesText places (roundDiv num den)
    if b.negative then "-" ++ body else body

/-- A double with one digit before the point, a fixed number after it, and a power of ten. -/
def powerFixedText (places : Nat) (x : Float) : String :=
  match Binary.ofFloat? x with
  | none => if x.isNaN then "nan" else if x < 0 then "-inf" else "inf"
  | some b =>
    let body :=
      if b.mantissa = 0 then placesText places 0 ++ powerText 0
      else
        let e := magnitude b.mantissa b.exponent - 1
        let (num, den) := scaled b.mantissa b.exponent (e - places)
        let n := roundDiv num den
        if n < Nat.pow 10 (places + 1) then placesText places n ++ powerText e
        else placesText places (n / 10) ++ powerText (e + 1)
    if b.negative then "-" ++ body else body

end LocalSat.Decimal
