import LocalSat.Search.Report
import LocalSat.Solver

/-!
# Benchmarks

A benchmark runs every algorithm with every seed on every formula. Its trials are listed in nested order,
formulas outermost, and each gives one row; a trial that fails ends the benchmark. Main statement: there
is exactly one trial for each combination (`length_trials`).

| here | there |
| --- | --- |
| `run` | `run_benchmark` |
| `runTrial` | the body of its loops |
-/

namespace LocalSat.Benchmark

open LocalSat.Search

/-- The combinations to be run, and the limits of every run. -/
structure Plan where
  formulas : List Formula
  algorithms : List String
  seeds : List Value
  maxIterations : Value
  timeout : Value

/-- The algorithms that are compared unless others are named. -/
def standardAlgorithms : List String := [Greedy.method.name, Walk.method.name]

/-- The iteration limit unless another is given. -/
def standardLimit : Value := .int 10000

/-- One combination; `index` counts the formulas. -/
structure Trial where
  index : Nat
  formula : Formula
  algorithm : String
  seed : Value

/-- What a trial gave. -/
structure Row where
  trial : Trial
  outcome : Outcome
  /-- Least number of unsatisfied clauses. -/
  best : Nat

namespace Plan

/-- The trials on one formula. -/
def trialsOn (p : Plan) (index : Nat) (f : Formula) : List Trial :=
  p.algorithms.flatMap fun a => p.seeds.map fun s => ⟨index, f, a, s⟩

/-- The trials on formulas, the first of which has number `index`. -/
def trialsFrom (p : Plan) (index : Nat) : List Formula → List Trial
  | [] => []
  | f :: fs => p.trialsOn index f ++ trialsFrom p (index + 1) fs

/-- All trials in order. -/
def trials (p : Plan) : List Trial := p.trialsFrom 0 p.formulas

/-- The options of the solver of a trial. -/
def options (p : Plan) (t : Trial) : List (String × Value) :=
  [("seed", t.seed), ("max_iterations", p.maxIterations), ("timeout", p.timeout)]

theorem length_trialsOn (p : Plan) (index : Nat) (f : Formula) :
    (p.trialsOn index f).length = p.algorithms.length * p.seeds.length := by
  unfold trialsOn
  induction p.algorithms with
  | nil => simp
  | cons a as ih => simp [ih, Nat.add_mul, Nat.add_comm]

theorem length_trialsFrom (p : Plan) (fs : List Formula) : ∀ index,
    (p.trialsFrom index fs).length = fs.length * (p.algorithms.length * p.seeds.length) := by
  induction fs with
  | nil => simp [trialsFrom]
  | cons f fs ih => intro index; simp [trialsFrom, ih, length_trialsOn, Nat.add_mul, Nat.add_comm]

theorem length_trials (p : Plan) : p.trials.length =
    p.formulas.length * (p.algorithms.length * p.seeds.length) :=
  p.length_trialsFrom p.formulas 0

end Plan

/-- A benchmark in progress: readings of the clock, log records and rows, each latest first. -/
structure Progress where
  readings : Nat
  records : List LogRecord
  rows : List Row

/-- The logger of benchmarks. -/
def logger : String := "greedysat.benchmark"

/-- The record about a row, made only if the seed can be printed. -/
def Row.logRecord (r : Row) : LogRecord :=
  ⟨logger, 10, "instance " ++ toString r.trial.index ++ " " ++ r.trial.algorithm ++ " seed "
    ++ r.trial.seed.display ++ ": " ++ r.outcome.report.line⟩

/-- Runs one trial, its solver being run by `solve`. A row is recorded with its seed, which is where a seed
of too many digits fails. -/
def runTrial {m : Type → Type} [Monad m] (solve : Solver → m (Solver × Except Failure Outcome))
    (registry : Registry) (c : Config) (p : Plan) (t : Trial) (s : Progress) :
    m (Progress × Except Failure Unit) :=
  match Solver.create registry c t.formula (.text t.algorithm) (p.options t) s.readings with
  | .error e => pure (s, .error e)
  | .ok solver => do
    let (solver, result) ← solve solver
    let s := { s with
      readings := solver.run.readings
      records := solver.run.notices.map solver.logRecord ++ s.records }
    match result with
    | .error e => pure (s, .error e)
    | .ok o =>
      let row : Row := ⟨t, o, solver.run.state.best⟩
      let s := { s with rows := row :: s.rows }
      if t.seed.printable then pure ({ s with records := row.logRecord :: s.records }, .ok ())
      else pure (s, .error .tooLong)

/-- Runs trials in order, up to the first that fails. -/
def runTrials {m : Type → Type} [Monad m] (solve : Solver → m (Solver × Except Failure Outcome))
    (registry : Registry) (c : Config) (p : Plan) :
    List Trial → Progress → m (Progress × Except Failure Unit)
  | [], s => pure (s, .ok ())
  | t :: ts, s => do
    match ← runTrial solve registry c p t s with
    | (s, .error e) => pure (s, .error e)
    | (s, .ok ()) => runTrials solve registry c p ts s

/-- The rows of all trials, and the log records on the way. -/
def run {m : Type → Type} [Monad m] (solve : Solver → m (Solver × Except Failure Outcome))
    (registry : Registry) (c : Config) (p : Plan) : m (List LogRecord × Except Failure (List Row)) := do
  let (s, r) ← runTrials solve registry c p p.trials ⟨0, [], []⟩
  pure (s.records.reverse, r.map fun _ => s.rows.reverse)

/-- The rows of all trials under a clock; without an answer if a run has no end. -/
def run? (registry : Registry) (c : Config) (clock : Nat → Float) (p : Plan) :
    Option (List LogRecord × Except Failure (List Row)) :=
  run (fun s => s.solve? ⟨clock, false⟩) registry c p

end LocalSat.Benchmark
