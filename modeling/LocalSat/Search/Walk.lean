import LocalSat.Search.State

/-!
# Random walk

The walk sets a uniformly chosen variable to a uniformly chosen value in every iteration. It keeps no
path and closes nothing, so on an unsatisfiable formula only a limit ends it.

| here | there |
| --- | --- |
| `step` | `RandomWalkSolver.step` |
-/

namespace LocalSat.Search.Walk

/-- One iteration of the walk. -/
def step (f : Formula) (s : State) : State × Except Fault Unit :=
  if f.numVariables = 0 then (s, .error (.random .emptyRange))
  else
    let (i, g) := s.generator.below f.numVariables
    let (b, g) := g.coin
    match s.assignment.apply ⟨i, .int (if b then 1 else 0)⟩ with
    | .error e => ({ s with generator := g }, .error (.outOfRange e))
    | .ok a =>
      ({ s with generator := g, assignment := a.forget, iterations := s.iterations + 1 }, .ok ())

/-- The walk method. Its generator and its assignment together take fewer than this many values, so a
run that has not ended by then goes round in a circle. -/
def method : Method where
  name := "random"
  title := "RandomWalkSolver"
  guided := false
  step := step
  counters s := [("flips", s.iterations)]
  bound f := Nat.pow 2 162 * Nat.pow 3 f.numVariables

end LocalSat.Search.Walk
