import LocalSat.Decimal.Numeral
import LocalSat.Value

/-!
# Plain YAML scalars

An unquoted scalar is null, a truth value, an integer, a real number, or else a text. Integers may be
binary, octal (with a leading zero), hexadecimal or in base sixty, and hold underscores; a real number
has a point or a power of ten. A text that reads as anything else has to be quoted when it is written.
-/

namespace LocalSat.Yaml

open LocalSat.Text LocalSat.Decimal

/-- Spellings of null. -/
def nullWords : List String := ["", "~", "null", "Null", "NULL"]

/-- Spellings of true. -/
def trueWords : List String := ["yes", "Yes", "YES", "true", "True", "TRUE", "on", "On", "ON"]

/-- Spellings of false. -/
def falseWords : List String := ["no", "No", "NO", "false", "False", "FALSE", "off", "Off", "OFF"]

/-- The number that digits of a base spell, underscores ignored. -/
def inBase (base : Nat) (cs : List Char) : Option Nat :=
  cs.foldlM (fun n c =>
    if c == '_' then some n
    else
      let d := if c.isDigit then c.toNat - 48
        else if c.isAlpha then c.toLower.toNat - 87 else base
      if d < base then some (n * base + d) else none) 0

/-- Whether some character is no underscore. -/
def hasDigit (cs : List Char) : Bool := cs.any (· != '_')

/-- Groups of digits in base sixty, the first one below any bound. -/
def sexagesimal? (cs : List Char) : Option Nat :=
  match pieces (· == ':') cs with
  | first :: second :: rest => do
    let lead ← first.head?
    guard (lead.isDigit && lead != '0')
    let start ← inBase 10 first
    (second :: rest).foldlM (fun n g => do
      guard (g.length == 1 || g.length == 2)
      guard (g.all Char.isDigit)
      let d ← inBase 10 g
      if d < 60 then some (n * 60 + d) else none) start
  | _ => none

/-- The value of an unsigned integer scalar. -/
def naturalScalar? (cs : List Char) : Option Nat :=
  match cs with
  | ['0'] => some 0
  | '0' :: 'b' :: ds => if hasDigit ds || ds == ['_'] then inBase 2 ds else none
  | '0' :: 'x' :: ds => if hasDigit ds then inBase 16 ds else none
  | '0' :: ds => if ds.isEmpty then none else inBase 8 ds
  | c :: ds =>
    if c.isDigit then
      if ds.contains ':' then sexagesimal? (c :: ds) else inBase 10 (c :: ds)
    else none
  | [] => none

/-- The value of an integer scalar. -/
def integerScalar? (cs : List Char) : Option Int :=
  let (negative, ds) := signed cs
  (naturalScalar? ds).map fun n => if negative then -(n : Int) else n

/-- Whether a scalar is spelled like a real number: digits with a point, or with a power of ten, or
with both. -/
def isRealScalar (cs : List Char) : Bool :=
  let (_, ds) := signed cs
  let isBody (c : Char) : Bool := c.isDigit || c == '_'
  let whole := ds.takeWhile isBody
  let rest := ds.dropWhile isBody
  let isPower (needSign : Bool) (p : List Char) : Bool :=
    match p with
    | [] => true
    | e :: r =>
      (e == 'e' || e == 'E') &&
      (match r with
        | '-' :: k => !k.isEmpty && k.all Char.isDigit
        | '+' :: k => !k.isEmpty && k.all Char.isDigit
        | k => !needSign && !k.isEmpty && k.all Char.isDigit)
  match whole, rest with
  | c :: _, '.' :: r => c.isDigit && isPower false (r.dropWhile isBody)
  | c :: _, r => c.isDigit && !r.isEmpty && isPower false r
  | [], '.' :: r =>
    cs.head? == some '.' && !(r.takeWhile isBody).isEmpty && isPower true (r.dropWhile isBody)
  | [], _ => false

/-- The value of a real scalar. -/
def realScalar? (cs : List Char) : Option Float :=
  let (negative, ds) := signed cs
  let inf : Float := 1.0 / 0.0
  if [".inf", ".Inf", ".INF"].contains (String.ofList ds) then some (if negative then -inf else inf)
  else if [".nan", ".NaN", ".NAN"].contains (String.ofList cs) then some (0.0 / 0.0)
  else if isRealScalar cs then readReal? (String.ofList (cs.filter (· != '_')))
  else none

/-- The value of an unquoted scalar. -/
def ofPlain (s : String) : Value :=
  if nullWords.contains s then .null
  else if trueWords.contains s then .bool true
  else if falseWords.contains s then .bool false
  else match integerScalar? s.toList with
    | some n => .int n
    | none => match realScalar? s.toList with
      | some x => .real x
      | none => .text s

/-- Whether an integer scalar has, in base ten or up to its first colon, too many digits to be read; in
the other bases there is no bound. -/
def isTooLong (cs : List Char) : Bool :=
  let (_, ds) := signed cs
  ds.head? != some '0' && maxDigits < ((ds.takeWhile (· != ':')).filter Char.isDigit).length

/-- The value of an unquoted scalar, unless it is an integer that cannot be read. -/
def ofPlain? (s : String) : Option Value :=
  match ofPlain s with
  | .int n => if isTooLong s.toList then none else some (.int n)
  | v => some v

/-- Whether a text is spelled like a date, year first. -/
def isDate (cs : List Char) : Bool :=
  match pieces (· == '-') cs with
  | [y, m, d] =>
    y.length == 4 && m.length == 2 && d.length == 2 && (y ++ m ++ d).all Char.isDigit
  | _ => false

/-- Whether a text, left unquoted, would be read as something else, here or by a reader with more truth
words or with dates. -/
def needsQuotes (s : String) : Bool :=
  (match ofPlain s with | .text _ => false | _ => true)
    || ["y", "Y", "n", "N", "=", "<<"].contains s
    || (readInteger? s).isSome || (readReal? s).isSome || isDate s.toList

end LocalSat.Yaml
