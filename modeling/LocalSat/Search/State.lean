import Std.Data.HashSet
import LocalSat.Assignment
import LocalSat.Random.Generator

/-!
# The state of a local search

A search changes one variable at a time. `State` holds all that one step hands to the next, `Fault` what
can go wrong in a step, and a `Method` is a step together with the counters it reports. Steps yield a
state also when they fail, because the effects before the fault remain.

| here | there |
| --- | --- |
| `Phase` | `SearchState` |
| `State` | the fields of `LocalSearchSolver` and `GreedySolver` |
| `Method` | `step` and `statistics` of a solver |
-/

namespace LocalSat.Search

/-- Where a search is in its run. -/
inductive Phase where
  | searching
  | solved
  /-- There is no move left. -/
  | exhausted
deriving DecidableEq, Repr

/-- The phase as it is reported. -/
def Phase.name : Phase → String
  | .searching => "searching"
  | .solved => "solved"
  | .exhausted => "exhausted"

/-- What can go wrong during a search. -/
inductive Fault where
  | outOfRange (e : OutOfRange)
  /-- There was no move to take back. -/
  | emptyHistory
  | random (e : Random.Error)
  /-- A limit is of a kind that a measure of the other kind cannot be compared with. -/
  | incomparable (measure limit : String)
  /-- A limit was reached that has too many digits to be noted. -/
  | tooLong
deriving DecidableEq, Repr

/-- What a search knows between two steps. -/
structure State where
  generator : Random.Generator
  assignment : Assignment
  phase : Phase
  iterations : Nat
  /-- Runs begun so far. -/
  runs : Nat
  /-- Least number of unsatisfied clauses met in this run. -/
  best : Nat
  /-- Values that were left and are not entered again. -/
  closed : Std.HashSet Fingerprint
  /-- Moves forward. -/
  moves : Nat
  /-- Moves taken back. -/
  backtracks : Nat

/-- The state before the first run. -/
def State.initial (f : Formula) (g : Random.Generator) : State where
  generator := g
  assignment := .unassigned f.numVariables
  phase := .searching
  iterations := 0
  runs := 0
  best := f.size
  closed := ∅
  moves := 0
  backtracks := 0

/-- A search algorithm. -/
structure Method where
  /-- The name in results and log lines. -/
  name : String
  /-- The name of its kind of solver. -/
  title : String
  /-- Whether the search is led by scores and keeps closed values. -/
  guided : Bool
  /-- One iteration on an assignment that does not satisfy the formula. -/
  step : Formula → State → State × Except Fault Unit
  /-- What the method counts, beside the least number of unsatisfied clauses. -/
  counters : State → List (String × Int)
  /-- Rounds after which a run that is not over never will be. -/
  bound : Formula → Nat

end LocalSat.Search
