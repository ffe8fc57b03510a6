import LocalSat.Value
import LocalSat.Decimal.Real
import LocalSat.Text.Integer
import LocalSat.Text.Quoted

/-!
# Values in messages

`Value.display` is a value as a message names it, `Value.quote` the same with texts in quotes. Inside
lists and mappings texts always stand in quotes. A message is made only of values that are `printable`.
-/

namespace LocalSat.Value

open LocalSat.Decimal LocalSat.Text

mutual

/-- A value with its texts in quotes. -/
def quote : Value → String
  | null => "None"
  | bool b => if b then "True" else "False"
  | int n => toString n
  | real x => shortText .plain x
  | text s => quoted s
  | list items => "[" ++ String.intercalate ", " (quoteAll items) ++ "]"
  | mapping entries => "\x7b" ++ String.intercalate ", " (quoteEntries entries) ++ "\x7d"

/-- The items of a list, each quoted. -/
def quoteAll : List Value → List String
  | [] => []
  | v :: vs => quote v :: quoteAll vs

/-- The entries of a mapping, each quoted. -/
def quoteEntries : List (String × Value) → List String
  | [] => []
  | (k, v) :: rest => (quoted k ++ ": " ++ quote v) :: quoteEntries rest

end

/-- A value as it stands in running text: a text as it is, all else as `quote` writes it. -/
def display : Value → String
  | text s => s
  | v => quote v

mutual

/-- Whether every integer in a value can be printed. -/
def printable : Value → Bool
  | int n => decide (Text.Printable n)
  | list items => printableAll items
  | mapping entries => printableEntries entries
  | _ => true

/-- Whether every integer in the items of a list can be printed. -/
def printableAll : List Value → Bool
  | [] => true
  | v :: vs => printable v && printableAll vs

/-- Whether every integer in the entries of a mapping can be printed. -/
def printableEntries : List (String × Value) → Bool
  | [] => true
  | (_, v) :: rest => printable v && printableEntries rest

end

theorem printable_int {n : Int} : (int n).printable = true ↔ Printable n := by
  rw [printable, decide_eq_true_eq]

/-- Integers between brackets. -/
def integerList (ns : List Int) : String :=
  "[" ++ String.intercalate ", " (ns.map toString) ++ "]"

end LocalSat.Value
