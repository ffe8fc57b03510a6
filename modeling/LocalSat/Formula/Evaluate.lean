import LocalSat.Formula
import LocalSat.Position

/-!
# Evaluating formulas

An evaluator looks up the variables of a formula through a `Reading`, which may have no entry for an
index. A literal over an unassigned variable neither satisfies nor falsifies its clause. Main statement:
`isSatisfied` stops at the first true literal, so an index beyond the values is an error only if it is
reached (`isSatisfied_cons`).

| here | there |
| --- | --- |
| `Clause.isSatisfied`, `isSatisfied` | `is_satisfied`, `is_formula_satisfied` |
| `satisfiedCount`, `unsatisfiedCount` | `satisfied_count`, `unsatisfied_count` |
| `unsatisfiedClauses`, `candidates` | `unsatisfied_clauses`, `candidate_variables` |
-/

namespace LocalSat

/-- The value of each variable: a truth value, nothing for an unassigned one, or no entry. -/
abbrev Reading := Int → Except OutOfRange (Option Bool)

/-- Reads variables off a list of values. -/
def Reading.ofValues (values : Array Value) : Reading := fun i =>
  match (position? values.size i).bind (values[·]?) with
  | some v => .ok v.truth
  | none => .error .list

/-- Whether some literal is true, the literals being tried in order up to the first true one. -/
def anyTrue (look : Reading) : List Literal → Except OutOfRange Bool
  | [] => .ok false
  | l :: ls =>
    match look l.var with
    | .error e => .error e
    | .ok b => if l.evaluate b = some true then .ok true else anyTrue look ls

/-- Whether a clause is satisfied. -/
def Clause.isSatisfied (c : Clause) (look : Reading) : Except OutOfRange Bool :=
  anyTrue look c.literals

/-- Whether all clauses are satisfied, tried in order up to the first that is not. -/
def allSatisfied (look : Reading) : List Clause → Except OutOfRange Bool
  | [] => .ok true
  | c :: cs =>
    match c.isSatisfied look with
    | .error e => .error e
    | .ok b => if b then allSatisfied look cs else .ok false

/-- The positions, from `i` on, of the clauses that are not satisfied. -/
def unsatisfiedFrom (look : Reading) (i : Nat) : List Clause → Except OutOfRange (List Nat)
  | [] => .ok []
  | c :: cs =>
    match c.isSatisfied look with
    | .error e => .error e
    | .ok b => (unsatisfiedFrom look (i + 1) cs).map fun is => if b then is else i :: is

/-- How many of the clauses are satisfied. -/
def countSatisfied (look : Reading) : List Clause → Except OutOfRange Nat
  | [] => .ok 0
  | c :: cs =>
    match c.isSatisfied look with
    | .error e => .error e
    | .ok b => (countSatisfied look cs).map fun n => if b then n + 1 else n

/-- The clauses that are not satisfied, in order. -/
def violated (look : Reading) : List Clause → Except OutOfRange (List Clause)
  | [] => .ok []
  | c :: cs =>
    match c.isSatisfied look with
    | .error e => .error e
    | .ok b => (violated look cs).map fun ds => if b then ds else c :: ds

/-- The list without repetitions, each entry at its first place; `seen` entries are left out. -/
def firstOccurrences (seen : List Int) : List Int → List Int
  | [] => []
  | v :: vs =>
    if seen.contains v then firstOccurrences seen vs else v :: firstOccurrences (v :: seen) vs

namespace Formula

/-- Whether every clause is satisfied; an empty formula is. -/
def isSatisfied (f : Formula) (look : Reading) : Except OutOfRange Bool :=
  allSatisfied look f.clauses

/-- Number of satisfied clauses. -/
def satisfiedCount (f : Formula) (look : Reading) : Except OutOfRange Nat :=
  countSatisfied look f.clauses

/-- Number of clauses that are not satisfied, the quantity that the search makes small. -/
def unsatisfiedCount (f : Formula) (look : Reading) : Except OutOfRange Nat :=
  (f.satisfiedCount look).map (f.size - ·)

/-- The positions of the clauses that are not satisfied, in increasing order. -/
def unsatisfiedClauses (f : Formula) (look : Reading) : Except OutOfRange (List Nat) :=
  unsatisfiedFrom look 0 f.clauses

/-- The variables of the clauses that are not satisfied, in the order of their first appearance. Only
they can repair a violated clause. -/
def candidates (f : Formula) (look : Reading) : Except OutOfRange (List Int) :=
  (violated look f.clauses).map fun cs => firstOccurrences [] (cs.flatMap Clause.vars)

end Formula

theorem isSatisfied_cons (look : Reading) (l : Literal) (ls : List Literal) {b : Option Bool}
    (h : look l.var = .ok b) :
    anyTrue look (l :: ls) = if l.evaluate b = some true then .ok true else anyTrue look ls := by
  simp [anyTrue, h]

end LocalSat
