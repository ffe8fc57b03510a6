import LocalSat.Search.Run
import LocalSat.Value.Display

/-!
# Reporting outcomes

A report is an outcome in the form in which it is shown and recorded: its fields are values, and its
assignment may hold any values, of which only the truth counts.

| here | there |
| --- | --- |
| `satisfied`, `model`, `satisfactionRatio` | `satisfied`, `model`, `satisfaction_ratio` of a `SolverResult` |
| `fields` | `SolverResult.to_dict` |
-/

namespace LocalSat.Search

open LocalSat.Decimal

/-- An outcome as it is shown. -/
structure Report where
  status : Status
  iterations : Value := .int 0
  /-- The satisfying values, or null. -/
  assignment : Value := .null
  runtime : Value := .real 0.0
  satisfiedClauses : Value := .int 0
  totalClauses : Value := .int 0
  algorithm : Value := .null
  statistics : List (String × Value) := []

namespace Report

/-- The status of the given name. -/
def status? (name : String) : Option Status :=
  [Status.satisfiable, .exhausted, .timeout].find? (·.name = name)

/-- Whether a satisfying assignment was found. -/
def satisfied (r : Report) : Bool := r.status == .satisfiable

/-- The satisfying assignment as signed integers, counted from one. -/
def model (r : Report) : Value :=
  match r.assignment with
  | .list vs => .list ((vs.zipIdx 1).map fun (v, i) => .int (if v.isTrue then i else -(i : Int)))
  | v => v

/-- The share of satisfied clauses; all of none are satisfied. -/
def satisfactionRatio (r : Report) : Float :=
  match r.satisfiedClauses.integer?, r.totalClauses.integer? with
  | some a, some b => if b = 0 then 1.0 else ratio a b
  | _, _ => 1.0

/-- The fields of a report, in order. -/
def fields (r : Report) : List (String × Value) :=
  [("algorithm", r.algorithm), ("status", .text r.status.name), ("satisfied", .bool r.satisfied),
   ("iterations", r.iterations), ("runtime", r.runtime), ("satisfied_clauses", r.satisfiedClauses),
   ("total_clauses", r.totalClauses), ("assignment", r.assignment),
   ("statistics", .mapping r.statistics)]

/-- Seconds with four places. -/
def seconds (v : Value) : String :=
  match v with
  | .real x => fixedText 4 x ++ "s"
  | .int n => fixedText 4 (.ofInt n) ++ "s"
  | v => v.display ++ "s"

/-- The report in one line. -/
def line (r : Report) : String :=
  let counts :=
    if r.satisfied then ""
    else r.satisfiedClauses.display ++ "/" ++ r.totalClauses.display ++ " clauses, "
  "SAT Result: " ++ r.status.name.toUpper ++ " (" ++ counts ++ r.iterations.display
    ++ " iterations, " ++ seconds r.runtime ++ ")"

/-- The report by its status and length. -/
def describe (r : Report) : String :=
  "SolverResult(status=SolverStatus." ++ r.status.name.toUpper ++ ", iterations="
    ++ r.iterations.display ++ ")"

end Report

/-- The report of an outcome. -/
def Outcome.report (o : Outcome) : Report where
  status := o.status
  iterations := .int o.iterations
  assignment := Value.ofOption (fun bs => .list (bs.map .bool)) o.model
  runtime := .real o.runtime
  satisfiedClauses := .int o.satisfiedClauses
  totalClauses := .int o.totalClauses
  algorithm := .text o.method
  statistics := o.counters.map (fun (k, n) => (k, .int n)) ++ [("runtime", .real o.runtime)]

end LocalSat.Search
