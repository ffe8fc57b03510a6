import LocalSat.Decimal.Number

/-!
# Values

Configurations, event records and hand-made assignments hold values of mixed kinds. `Value` is their one
type; a mapping keeps its entries in order. `Value.truth` says which truth value, if any, a value gives
to a variable.
-/

namespace LocalSat

open LocalSat.Decimal

/-- A scalar, a list, or an ordered mapping from texts to values. -/
inductive Value where
  | null
  | bool (b : Bool)
  | int (n : Int)
  | real (x : Float)
  | text (s : String)
  | list (items : List Value)
  | mapping (entries : List (String × Value))
deriving Repr, Inhabited

namespace Value

mutual

/-- Whether two values are of one kind and alike in all their parts. -/
def alike : Value → Value → Bool
  | null, null => true
  | bool a, bool b => a == b
  | int m, int n => m == n
  | real x, real y => x == y
  | text s, text t => s == t
  | list vs, list ws => alikeAll vs ws
  | mapping es, mapping fs => alikeEntries es fs
  | _, _ => false

/-- Whether two lists of values are alike item by item. -/
def alikeAll : List Value → List Value → Bool
  | [], [] => true
  | v :: vs, w :: ws => alike v w && alikeAll vs ws
  | _, _ => false

/-- Whether two lists of entries have the same keys in the same order, and values that are alike. -/
def alikeEntries : List (String × Value) → List (String × Value) → Bool
  | [], [] => true
  | (k, v) :: es, (l, w) :: fs => k == l && alike v w && alikeEntries es fs
  | _, _ => false

end

instance : BEq Value := ⟨alike⟩

/-- What a value counts as where a condition is asked for: empty and zero values count as false. -/
def isTrue : Value → Bool
  | null => false
  | bool b => b
  | int n => n != 0
  | real x => x != 0.0
  | text s => !s.isEmpty
  | list items => !items.isEmpty
  | mapping entries => !entries.isEmpty

/-- Whether a value marks a variable as unassigned: the null value and every number equal to -1. -/
def isUnassigned : Value → Bool
  | null => true
  | int n => n == -1
  | real x => x == -1.0
  | _ => false

/-- The truth value that a value gives to a variable, none for the unassigned marker. -/
def truth (v : Value) : Option Bool :=
  if v.isUnassigned then none else some v.isTrue

/-- The number that a value is; truth values count as one and zero. -/
def number? : Value → Option Number
  | bool b => some (.int (if b then 1 else 0))
  | int n => some (.int n)
  | real x => some (.real x)
  | _ => none

/-- The integer that a value is; truth values count as one and zero. -/
def integer? : Value → Option Int
  | bool b => some (if b then 1 else 0)
  | int n => some n
  | _ => none

/-- The name of a value's kind in messages. -/
def kind : Value → String
  | null => "NoneType"
  | bool _ => "bool"
  | int _ => "int"
  | real _ => "float"
  | text _ => "str"
  | list _ => "list"
  | mapping _ => "dict"

/-- The value under a key. -/
def lookup? (key : String) : List (String × Value) → Option Value
  | [] => none
  | (k, v) :: rest => if k = key then some v else lookup? key rest

/-- The entry of a mapping under a key; other values have none. -/
def field? (v : Value) (key : String) : Option Value :=
  match v with
  | mapping entries => lookup? key entries
  | _ => none

/-- Puts a value under a key: in place if the key is there, else at the end. -/
def insert (key : String) (v : Value) : List (String × Value) → List (String × Value)
  | [] => [(key, v)]
  | (k, w) :: rest => if k = key then (k, v) :: rest else (k, w) :: insert key v rest

/-- A null value for a missing one. -/
def ofOption {α : Type} (f : α → Value) : Option α → Value
  | none => null
  | some a => f a

theorem lookup?_insert_self (key : String) (v : Value) :
    ∀ entries, lookup? key (insert key v entries) = some v
  | [] => by simp [insert, lookup?]
  | (k, w) :: rest => by
    unfold insert
    split
    · simp_all [lookup?]
    · simp_all [lookup?, lookup?_insert_self key v rest]

theorem lookup?_insert_of_ne {key other : String} (v : Value) (h : other ≠ key) :
    ∀ entries, lookup? other (insert key v entries) = lookup? other entries
  | [] => by simp [insert, lookup?, h.symm]
  | (k, w) :: rest => by
    unfold insert
    split
    · rename_i hk; subst hk; simp [lookup?, h.symm]
    · simp [lookup?, lookup?_insert_of_ne v h rest]

end Value

end LocalSat
