import LocalSat.Benchmark.Summary
import LocalSat.Events.Table

/-!
# Tables of benchmarks

The rows of a benchmark are written as comma-separated values, its summary as a table with aligned
columns. A column of real numbers is written with six places, of which those are cut that are zero in
every row, or with powers of ten if some of its values are very small, or wide and very large.

| here | there |
| --- | --- |
| `csv`, `table` | `to_csv`, `to_string` |
-/

namespace LocalSat.Benchmark

open LocalSat.Decimal LocalSat.Events LocalSat.Text

/-! ## Rows -/

/-- The columns of the table of runs. -/
def columns : List String :=
  ["instance", "num_variables", "num_clauses", "algorithm", "seed", "status", "satisfied",
   "iterations", "runtime", "best_unsatisfied"]

/-- The cells of a row. -/
def Row.cells (r : Row) : List Value :=
  [.int r.trial.index, .int r.trial.formula.numVariables, .int r.trial.formula.size,
   .text r.trial.algorithm, r.trial.seed, .text r.outcome.status.name,
   .bool (r.outcome.status == .satisfiable), .int r.outcome.iterations, .real r.outcome.runtime,
   .int r.best]

/-- The table of runs as comma-separated values. -/
def csv (rows : List Row) : String :=
  if rows.isEmpty then "\n"
  else
    csvRow "\n" columns ++ String.join (rows.map fun r => csvRow "\n" (r.cells.map csvText))

/-! ## Columns of real numbers -/

/-- Whether a text is a decimal with a point and no power. -/
def isPointed (s : String) : Bool :=
  let cs := match s.toList with
    | ' ' :: cs => cs
    | '-' :: cs => cs
    | cs => cs
  match pieces (· == '.') cs with
  | [whole, places] => !whole.isEmpty && whole.all Char.isDigit && places.all Char.isDigit
  | _ => false

/-- Number of zeros at the end of a text. -/
def zerosAtEnd (s : String) : Nat := (s.toList.reverse.takeWhile (· == '0')).length

/-- Cuts the zeros that all decimals of a column end in, but leaves one place. -/
def trimZeros (texts : List String) : List String :=
  match ((texts.filter isPointed).map zerosAtEnd).min? with
  | none => texts
  | some n => texts.map fun s =>
    if isPointed s then
      let cs := s.toList.take (s.length - n)
      if cs.getLast? == some '.' then String.ofList cs ++ "0" else String.ofList cs
    else s

/-- A text in whose first place a minus sign stands, or a blank. -/
def signPlace (s : String) : String := if s.startsWith "-" then s else " " ++ s

/-- The texts of a column, a missing value being marked. -/
def realColumn (values : List (Option Float)) : List String :=
  let text (write : Float → String) : Option Float → String
    | some x => if x.isNaN then "NaN" else signPlace (write x)
    | none => "NaN"
  let places := trimZeros (values.map (text (fixedText 6)))
  let size (x : Float) : Float := x.abs
  let present := values.filterMap id
  let small := present.any fun x => size x < 1.0e-6 && 0.0 < size x
  let large := present.any fun x => 1.0e6 < size x
  let long := places.any fun s => 12 < s.length
  if small || (long && large) then trimZeros (values.map (text (powerFixedText 6))) else places

/-! ## The summary as a table -/

/-- The columns of a summary beside the algorithm. -/
def summaryColumns : List String := ["runs", "solve_rate", "mean_iterations", "mean_runtime"]

/-- The double nearest to a fraction. -/
def realOfRat (q : Rat) : Float := ratio q.num q.den

namespace Summary

/-- The cells of a summary, a missing mean being none. -/
def cells (s : Summary) : List (Option Float) :=
  [some (Float.ofNat s.runs), some (realOfRat s.solveRate), s.meanIterations.map realOfRat,
   some s.meanRuntime]

end Summary

/-- A name of a row, characters that would break the line being escaped. -/
def rowName (s : String) : String :=
  String.join (s.toList.map fun c =>
    if c == '\t' then "\\t" else if c == '\r' then "\\r" else if c == '\n' then "\\n"
    else String.ofList [c])

/-- A text filled up with blanks on the right. -/
def padRight (n : Nat) (s : String) : String :=
  s ++ String.ofList (List.replicate (n - s.length) ' ')

/-- A column under its name, right-aligned to the longest entry. -/
def aligned (name : String) (entries : List String) : List String :=
  let texts := (" " ++ name) :: entries
  let n := (texts.map String.length).foldl max 0
  texts.map (padLeft n ' ')

/-- Puts columns side by side, a blank between them. -/
def sideBySide (left right : List String) : List String :=
  left.zipWith (fun a b => a ++ " " ++ b) right

/-- What is written for a summary without rows. -/
def emptyTable : String :=
  "Empty DataFrame\nColumns: [" ++ String.intercalate ", " summaryColumns ++ "]\nIndex: []"

/-- The summary as a table, without a final line end. -/
def table (summaries : List Summary) : String :=
  if summaries.isEmpty then emptyTable
  else
    let names := summaries.map fun s => rowName s.algorithm
    let n := (("algorithm" :: names).map String.length).foldl max 0
    let column (i : Nat) : List String :=
      realColumn (summaries.map fun s => (s.cells[i]?).join)
    let runs := aligned "runs" (summaries.map fun s => " " ++ toString s.runs)
    let body :=
      sideBySide (sideBySide (sideBySide runs (aligned "solve_rate" (column 1)))
        (aligned "mean_iterations" (column 2))) (aligned "mean_runtime" (column 3))
    let width := (body.head?.getD "").length
    match sideBySide (("" :: names).map (padRight n)) body with
    | [] => ""
    | first :: rest =>
      String.intercalate "\n" (first :: padRight (n + 1 + width) "algorithm" :: rest)

end LocalSat.Benchmark
