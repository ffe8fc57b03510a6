import LocalSat.Failure
import LocalSat.Registry
import LocalSat.Search.Run

/-!
# Solvers

A solver is a method, a formula and settings together with the state of its search. Settings that are not
given are taken from the configuration. Each operation of a solver is one of the search's, run on the
solver's task; it yields a solver also when it fails, because what was done before the failure remains.
Main statement: making a solver fails only for one of the reasons tried in order (`create_ok`).

| here | there |
| --- | --- |
| `Settings.ofOptions`, `make` | the constructor of `LocalSearchSolver` |
| `create` | `create_solver` |
| `solve?` | `LocalSearchSolver.solve` |
| `logRecord` | the log lines of `solve` and `_update_state` |
-/

namespace LocalSat

open LocalSat.Decimal LocalSat.Search

/-- The settings of a solver, as they were given. -/
structure Settings where
  seed : Value
  initialization : Value
  maxIterations : Value
  timeout : Value

namespace Settings

/-- The names of the options of a solver. -/
def optionNames : List String :=
  ["seed", "initialization", "max_iterations", "timeout", "event_logger"]

/-- The option of a name, or else its setting in the configuration. -/
def option (c : Config) (options : List (String × Value)) (name : String) (fallback : Value) : Value :=
  match Value.lookup? name options with
  | some .null => c.get ("solver." ++ name) fallback
  | some v => v
  | none => c.get ("solver." ++ name) fallback

/-- The start values by option or configuration; an option that is empty counts as not given. -/
def startOption (c : Config) (options : List (String × Value)) : Value :=
  match Value.lookup? "initialization" options with
  | some v => if v.isTrue then v else c.get "solver.initialization" (.text "random")
  | none => c.get "solver.initialization" (.text "random")

/-- The settings by options and configuration. -/
def ofOptions (c : Config) (options : List (String × Value)) : Except Failure Settings :=
  match options.find? fun (name, _) => !optionNames.contains name with
  | some (name, _) => .error (.unknownOption name)
  | none => do
    let start ← (Config.checkInitialization (startOption c options)).mapError .config
    return {
      seed := option c options "seed" (.int 0)
      initialization := start
      maxIterations := option c options "max_iterations" .null
      timeout := option c options "timeout" .null }

/-- A setting as a limit. -/
def limit (v : Value) : Limit :=
  match v with
  | .null => .never
  | v => match v.number? with
    | some n => .at n
    | none => .incomparable v.kind

/-- The start values that a setting names; anything but `unassigned` asks for random ones. -/
def start (s : Settings) : Start :=
  if s.initialization == .text "unassigned" then .unassigned else .random

end Settings

/-- A method at work on a formula. -/
structure Solver where
  method : Method
  formula : Formula
  settings : Settings
  run : Run

/-- The clock of a program, and whether the progress of its searches is recorded. -/
structure Surroundings where
  clock : Nat → Float
  recorded : Bool

namespace Solver

/-- The task of a solver. -/
def task (s : Solver) (w : Surroundings) : Task where
  formula := s.formula
  method := s.method
  start := s.settings.start
  generator := Random.Generator.ofValue s.settings.seed
  maxIterations := Settings.limit s.settings.maxIterations
  timeout := Settings.limit s.settings.timeout
  clock := w.clock
  recorded := w.recorded

/-- A solver that has not run yet; `readings` of the clock have been made before. -/
def make (m : Method) (f : Formula) (settings : Settings) (readings : Nat) : Except Failure Solver :=
  match Random.Generator.ofValue settings.seed with
  | .error e => .error (.random e)
  | .ok g => .ok ⟨m, f, settings, ⟨.initial f g, readings, []⟩⟩

/-- The solver of a registered name; a null name stands for the configured one. -/
def create (r : Registry) (c : Config) (f : Formula) (name : Value)
    (options : List (String × Value)) (readings : Nat) : Except Failure Solver := do
  let kind ← (r.find c name).mapError .config
  match kind.method? with
  | none => throw (.abstractSolver kind.title)
  | some m => make m f (← Settings.ofOptions c options) readings

/-! ## Operations -/

/-- The solver with its search in another state. -/
def withState (s : Solver) (st : State) : Solver := { s with run := { s.run with state := st } }

/-- The solver with another assignment. -/
def withAssignment (s : Solver) (a : Assignment) : Solver :=
  s.withState { s.run.state with assignment := a }

/-- The result of an operation on the search. -/
def done {α : Type} (s : Solver) (r : Run × Except Fault α) : Solver × Except Failure α :=
  ({ s with run := r.1 }, r.2.mapError .ofFault)

/-- One run from the start to its end, if it takes less than the given rounds. -/
def solveWithin (s : Solver) (w : Surroundings) (rounds : Nat) :
    Option (Solver × Except Failure Outcome) :=
  ((s.task w).solveWithin rounds s.run).map s.done

/-- One run from the start to its end; a run without end is not answered. -/
def solve? (s : Solver) (w : Surroundings) : Option (Solver × Except Failure Outcome) :=
  s.solveWithin w (s.task w).rounds

/-- Starts afresh. -/
def reset (s : Solver) (w : Surroundings) : Solver × Except Failure Unit :=
  s.done ((s.task w).reset s.run)

/-- One iteration of the method. -/
def step (s : Solver) : Solver × Except Failure Unit :=
  let (st, r) := s.method.step s.formula s.run.state
  (s.withState st, r.mapError .ofFault)

/-- Scores the assignment anew. -/
def update (s : Solver) (w : Surroundings) : Solver × Except Failure Nat :=
  s.done ((s.task w).update s.run)

/-- Number of clauses that the present assignment does not satisfy. -/
def unsatisfied (s : Solver) : Except Failure Nat :=
  (s.formula.unsatisfiedCount s.run.state.assignment.look).mapError .outOfRange

/-- The moves that the search chooses among; an unguided search has none to show. -/
def candidateMoves (s : Solver) : Except Failure (List Move) :=
  if s.method.guided then
    (Greedy.candidateMoves s.formula s.run.state.assignment).mapError .outOfRange
  else .error (.noOperation s.method.title "candidate_moves")

/-- The best open move among the given ones; an unguided search cannot tell. -/
def selectMove (s : Solver) (moves : List Move) : Except Failure (Option Move) :=
  if s.method.guided then
    (Greedy.selectMove s.formula s.run.state.closed s.run.state.assignment moves).mapError .outOfRange
  else .error (.noOperation s.method.title "select_move")

/-- Makes a move. -/
def apply (s : Solver) (m : Move) : Solver × Except Failure Unit :=
  match s.run.state.assignment.apply m with
  | .error e => (s, .error (.outOfRange e))
  | .ok a => (s.withAssignment a, .ok ())

/-- Takes the latest move back. -/
def undo (s : Solver) : Solver × Except Failure Unit :=
  match s.run.state.assignment.undo? with
  | none => (s, .error .emptyHistory)
  | some a => (s.withAssignment a, .ok ())

/-- Closes the values of an assignment. -/
def close (s : Solver) (a : Assignment) : Solver × Except Failure Unit :=
  if s.method.guided then
    (s.withState { s.run.state with closed := s.run.state.closed.insert a.fingerprint }, .ok ())
  else (s, .error (.noOperation s.method.title "closed"))

/-- The closed values, one letter per variable, in the order of their letters. -/
def closedTexts (s : Solver) : List String :=
  let letter (b : UInt8) : Char := if b = 1 then 'T' else if b = 0 then 'F' else 'U'
  (s.run.state.closed.toList.map fun key => String.ofList (key.map letter)).mergeSort
    fun a b => decide (a ≤ b)

/-- What the search counts. -/
def counters (s : Solver) : List (String × Int) :=
  ("best_unsatisfied", (s.run.state.best : Int)) :: s.method.counters s.run.state

/-- The name of the method and the settings. -/
def parameters (s : Solver) : List Value :=
  [.text s.method.name, s.settings.seed, s.settings.initialization, s.settings.maxIterations,
   s.settings.timeout]

/-- Changes a setting, without a check; other names change nothing. -/
def withSetting (s : Solver) (name : String) (v : Value) : Solver :=
  match name with
  | "seed" => { s with settings := { s.settings with seed := v } }
  | "initialization" => { s with settings := { s.settings with initialization := v } }
  | "max_iterations" => { s with settings := { s.settings with maxIterations := v } }
  | "timeout" => { s with settings := { s.settings with timeout := v } }
  | _ => s

/-! ## Notices -/

/-- The logger of searches. -/
def logger : String := "greedysat.solvers.base"

/-- The record that a notice is logged as. A limit is noted only if it can be printed (`Task.stop`), and
all other numbers are counts. -/
def logRecord (s : Solver) (n : Notice) : LogRecord :=
  let name := s.method.name
  match n with
  | .progress _ i u _ _ =>
    ⟨logger, 10,
      name ++ ": " ++ toString u ++ " unsatisfied clauses after " ++ toString i ++ " iterations"⟩
  | .iterationLimit =>
    ⟨logger, 20, name ++ ": iteration limit " ++ s.settings.maxIterations.display ++ " reached"⟩
  | .timeLimit => ⟨logger, 20, name ++ ": timeout of " ++ s.settings.timeout.display ++ "s reached"⟩
  | .finished _ o _ =>
    let count := toString o.iterations ++ " iterations"
    ⟨logger, 20,
      if o.status = .satisfiable then name ++ ": solved in " ++ count
      else name ++ ": no solution found by this heuristic (" ++ o.status.name ++ ", " ++ count ++ ")"⟩

/-- The notices since they were last taken, in the order in which they were made, and the solver
without them. -/
def takeNotices (s : Solver) : List Notice × Solver :=
  (s.run.notices.reverse, { s with run := { s.run with notices := [] } })

/-! ## Laws -/

theorem mapError_ok {ε ε' α : Type} (f : ε → ε') (a : α) :
    (Except.ok a : Except ε α).mapError f = .ok a := rfl

theorem mapError_error {ε ε' α : Type} (f : ε → ε') (e : ε) :
    (Except.error e : Except ε α).mapError f = .error (f e) := rfl

theorem create_eq {r : Registry} {c : Config} {name : Value} {options : List (String × Value)}
    {k : SolverKind} {m : Method} {t : Settings} (hk : r.find c name = .ok k) (hm : k.method? = some m)
    (ht : Settings.ofOptions c options = .ok t) (f : Formula) (readings : Nat) :
    create r c f name options readings = make m f t readings := by
  simp only [create, hk, mapError_ok, bind, Except.bind, hm, ht]

/-- A solver is made from a registered kind with a method, from known options, and from a seed that
yields a generator, and it begins with every variable unassigned. -/
theorem create_ok {r : Registry} {c : Config} {f : Formula} {name : Value}
    {options : List (String × Value)} {readings : Nat} {s : Solver}
    (h : create r c f name options readings = .ok s) :
    ∃ k g, r.find c name = .ok k ∧ k.method? = some s.method ∧
      Settings.ofOptions c options = .ok s.settings ∧
      Random.Generator.ofValue s.settings.seed = .ok g ∧
      s.formula = f ∧ s.run = ⟨.initial f g, readings, []⟩ := by
  unfold create at h
  cases hk : r.find c name with
  | error e => rw [hk, mapError_error] at h; cases h
  | ok k =>
    rw [hk, mapError_ok] at h
    cases hm : k.method? with
    | none => simp only [bind, Except.bind, hm] at h; cases h
    | some m =>
      cases ho : Settings.ofOptions c options with
      | error e => simp only [bind, Except.bind, hm, ho] at h; cases h
      | ok t =>
        simp only [bind, Except.bind, hm, ho, make] at h
        cases hg : Random.Generator.ofValue t.seed with
        | error e => rw [hg] at h; cases h
        | ok g =>
          rw [hg] at h
          simp only [Except.ok.injEq] at h
          subst h
          exact ⟨k, g, rfl, hm, rfl, hg, rfl, rfl⟩

end Solver

end LocalSat
