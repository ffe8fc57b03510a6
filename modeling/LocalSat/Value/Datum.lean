import LocalSat.Decimal.Number
import LocalSat.Value.Display
import LocalSat.Value.Json

/-!
# Data beyond plain values

Records may hold sets, arrays of numbers and numbers of fixed width beside plain values. `Datum.plain?`
makes them plain, so that they have a JSON text: a set becomes its sorted list, an array a list whose
entries are of one kind, and a number of fixed width the number that it stands for. What is left over has
no JSON text.

| here | there |
| --- | --- |
| `Datum.plain?` | `NumpyJSONEncoder.default` |
-/

namespace LocalSat

open LocalSat.Decimal

/-- Types of numbers, after their widths. -/
inductive Width where
  | integer
  | half
  | single
  | double
  | truth
deriving DecidableEq, Repr

namespace Width

/-- The nearest number of `digits` binary digits and least exponent `least`, a half going to the even
neighbour; beyond `2^limit` it is infinite. -/
def narrow (digits : Nat) (least limit : Int) (x : Float) : Float :=
  match Binary.ofFloat? x with
  | none => x
  | some b =>
    let e := max (b.exponent + (Nat.log2 b.mantissa : Int) - (digits - 1)) least
    let (num, den) := scaled b.mantissa (b.exponent - e) 0
    let n := roundDiv num den
    let y : Float :=
      if limit < (Nat.log2 n : Int) + e + 1 then 1.0 / 0.0 else (Float.ofNat n).scaleB e
    if b.negative then -y else y

/-- The double that a value stands for. -/
def asReal (v : Value) : Float :=
  match v with
  | .bool b => if b then 1.0 else 0.0
  | .int n => .ofInt n
  | .real x => x
  | _ => 0.0

/-- A number in a width. -/
def hold (w : Width) (v : Value) : Value :=
  match w with
  | .integer =>
    match v with
    | .bool b => .int (if b then 1 else 0)
    | .real x =>
      match Binary.ofFloat? x with
      | some b => let (p, q) := b.fraction; .int (p.tdiv q)
      | none => v
    | v => v
  | .half => .real (narrow 11 (-24) 16 (asReal v))
  | .single => .real (narrow 24 (-149) 128 (asReal v))
  | .double => .real (asReal v)
  | .truth => .bool v.isTrue

end Width

/-- A value, a set, an array, a number of some width, or something without JSON text. -/
inductive Datum where
  | value (v : Value)
  | list (items : List Datum)
  | mapping (entries : List (String × Datum))
  | set (items : List Value)
  /-- An array of nested lists, all numbers of one width if a width is given. -/
  | array (items : Value) (width : Option Width)
  | scalar (width : Width) (v : Value)
  | foreign (kind : String)
deriving Inhabited

namespace Datum

/-! ## Arrays -/

/-- How general the entries of an array have to be. -/
inductive Rank where
  | truth
  | integer
  | real
  | text
  | any
deriving DecidableEq, Repr

/-- The more general of two ranks. -/
def Rank.join : Rank → Rank → Rank
  | .any, _ => .any
  | _, .any => .any
  | .text, _ => .text
  | _, .text => .text
  | .real, _ => .real
  | _, .real => .real
  | .integer, _ => .integer
  | _, .integer => .integer
  | .truth, .truth => .truth

mutual

/-- The rank of the entries of nested lists, if there are any. -/
def rank? : Value → Option Rank
  | .bool _ => some .truth
  | .int _ => some .integer
  | .real _ => some .real
  | .text _ => some .text
  | .list vs => rankAll? vs
  | _ => some .any

/-- The rank of the entries of several nested lists. -/
def rankAll? : List Value → Option Rank
  | [] => none
  | v :: vs =>
    match rank? v, rankAll? vs with
    | some a, some b => some (a.join b)
    | a, none => a
    | none, b => b

end

/-- An entry of an array in the array's rank. -/
def Rank.hold (r : Rank) (v : Value) : Value :=
  match r with
  | .truth => v
  | .integer => Width.integer.hold v
  | .real => Width.double.hold v
  | .text => .text v.display
  | .any => v

mutual

/-- Changes every entry of nested lists. -/
def mapEntries (f : Value → Value) : Value → Value
  | .list vs => .list (mapAll f vs)
  | v => f v

/-- Changes every entry of several nested lists. -/
def mapAll (f : Value → Value) : List Value → List Value
  | [] => []
  | v :: vs => mapEntries f v :: mapAll f vs

end

/-- Nested lists whose entries are all of the most general rank among them. -/
def level (v : Value) : Value :=
  match rank? v with
  | some r => mapEntries r.hold v
  | none => v

/-! ## Sets -/

/-- Whether two members of a set are equal; numbers are equal by value. -/
def equal (a b : Value) : Bool :=
  match a.number?, b.number? with
  | some (.int m), some (.int n) => m == n
  | some (.int m), some (.real y) => intGeReal m y && realGeInt y m
  | some (.real x), some (.int n) => realGeInt x n && intGeReal n x
  | some (.real x), some (.real y) => x == y
  | none, none => a == b
  | _, _ => false

/-- Whether one member may stand before another. -/
def before (a b : Value) : Bool :=
  match a.number?, b.number? with
  | some (.int m), some (.int n) => decide (m ≤ n)
  | some (.int m), some (.real y) => realGeInt y m
  | some (.real x), some (.int n) => intGeReal n x
  | some (.real x), some (.real y) => x ≤ y
  | _, _ =>
    match a, b with
    | .text s, .text t => decide (s ≤ t)
    | _, _ => true

/-- The members without repetitions, each at its first place; `seen` members are left out. -/
def distinct (seen : List Value) : List Value → List Value
  | [] => []
  | v :: vs => if seen.any (equal v) then distinct seen vs else v :: distinct (v :: seen) vs

/-- The members of a set in increasing order. -/
def sorted (vs : List Value) : List Value := (distinct [] vs).mergeSort before

/-! ## Plain values -/

mutual

/-- The plain value of a datum, or the kind of what has none. -/
def plain? : Datum → Except String Value
  | value v => .ok v
  | list items => (plainAll? items).map .list
  | mapping entries => (plainEntries? entries).map .mapping
  | set items => .ok (.list (sorted items))
  | array items none => .ok (level items)
  | array items (some w) => .ok (mapEntries w.hold items)
  | scalar w v => .ok (w.hold v)
  | foreign kind => .error kind

/-- The plain values of the items of a list. -/
def plainAll? : List Datum → Except String (List Value)
  | [] => .ok []
  | d :: ds =>
    match plain? d with
    | .error kind => .error kind
    | .ok v => (plainAll? ds).map (v :: ·)

/-- The plain values of entries. -/
def plainEntries? : List (String × Datum) → Except String (List (String × Value))
  | [] => .ok []
  | (k, d) :: rest =>
    match plain? d with
    | .error kind => .error kind
    | .ok v => (plainEntries? rest).map ((k, v) :: ·)

end

/-- The JSON text of a datum. -/
def json? (d : Datum) : Except String String := (plain? d).map Value.json

end Datum

end LocalSat
