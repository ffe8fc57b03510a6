import LocalSat.Benchmark.Table
import LocalSat.Cli.Arguments
import LocalSat.Config.File
import LocalSat.Dimacs.File
import LocalSat.Events

/-!
# The command line program

The program reads its arguments, lays them over the configuration, sets logging up, and then solves a
file or compares the algorithms. It works on a session: the files, the log and the text printed so far.
Running a solver takes time, so it is left to a host; the host of a given clock makes the whole program a
function. Expected failures are logged and end the program with a code; main statement:
`conclude_of_isExpected`.

| here | there |
| --- | --- |
| `configure` | `load_config`, `_apply_overrides` |
| `solveFile` | `run_solve` |
| `planOf`, `compare` | `run_benchmark_command` |
| `run` | `main` |
-/

namespace LocalSat.Cli

open LocalSat.Decimal LocalSat.Search

/-! ## Hosts and sessions -/

/-- Who runs solvers and reads the clock. -/
structure Host (m : Type → Type) where
  /-- Runs a solver once, with its progress recorded or not. -/
  solve : Bool → Solver → m (Solver × Except Failure Outcome)
  /-- The times of the readings of the clock. -/
  clock : m (Nat → Float)

/-- The host of a clock that is known beforehand; runs without end are not answered. -/
def Host.ofClock (clock : Nat → Float) : Host Option where
  solve recorded s := s.solve? ⟨clock, recorded⟩
  clock := some clock

/-- Files, log and output of the program. -/
structure Session where
  tree : FileTree
  sink : Log.Sink
  output : String

/-- Logs records. -/
def Session.log (s : Session) (rs : List LogRecord) : Session :=
  let (sink, tree) := Log.emitAll s.sink s.tree rs
  { s with sink := sink, tree := tree }

/-- Prints text. -/
def Session.print (s : Session) (text : String) : Session := { s with output := s.output ++ text }

/-- The logger of the program. -/
def logger : String := "greedysat.cli"

/-- What stands for the place in the program where a failure arose. -/
def traceMark : String := "<traceback>"

/-- The code of a run that found a solution, and of a benchmark. -/
def codeSolved : Nat := 0

/-- The code of a run that found none. -/
def codeNotSolved : Nat := 1

/-- The code of a failure. -/
def codeError : Nat := 2

/-! ## Recording a run -/

/-- Logs and records what was noted during a run, in order, up to the first event that cannot be
written; such an event still has taken its reading of the clock. -/
def replay (clock : Nat → Float) (solver : Solver) (j : Events.Journal) :
    List Notice → Session → Session × Events.Journal × Except (FileError × Nat) Unit
  | [], s => (s, j, .ok ())
  | n :: ns, s =>
    let s := s.log [solver.logRecord n]
    match Events.ofNotice? clock n, n.reading? with
    | some e, some reading =>
      match j.record s.tree e with
      | (j, .ok tree) => replay clock solver j ns { s with tree := tree }
      | (j, .error err) => (s, j, .error (err, reading + 1))
    | _, _ => replay clock solver j ns s

/-- Closes the event files; a failure to do so takes the place of the result. -/
def closing {α : Type} (j : Events.Journal) (s : Session) (r : Except Failure α) :
    Session × Except Failure α :=
  match (j.finalize s.tree).2 with
  | .ok (tree, _) => ({ s with tree := tree }, r)
  | .error e => (s, .error (.file e))

/-- Records the failure that ended a run, dated by the given reading of the clock, and closes the event
files. -/
def abandon {α : Type} (clock : Nat → Float) (j : Events.Journal) (run reading : Nat) (e : Failure)
    (s : Session) : Session × Except Failure α :=
  let event := Events.exceptionEvent (.int run) (.text e.kind) (.text e.text) (.text traceMark)
    (clock reading)
  match j.record s.tree event with
  | (j, .ok tree) => closing j { s with tree := tree } (.error e)
  | (j, .error err) => closing j s (.error (.file err))

/-- Logs and records a run that is over. -/
def account (clock : Nat → Float) (solver : Solver) (journal : Option Events.Journal)
    (r : Except Failure Outcome) (s : Session) : Session × Except Failure Outcome :=
  let (notices, solver) := solver.takeNotices
  match journal with
  | none => (s.log (notices.map solver.logRecord), r)
  | some j =>
    match replay clock solver j notices s with
    | (s, j, .error (err, reading)) =>
      abandon clock j solver.run.state.runs reading (.file err) s
    | (s, j, .ok ()) =>
      match r with
      | .error e => abandon clock j solver.run.state.runs solver.run.readings e s
      | .ok o => closing j s (.ok o)

/-! ## Solving a file -/

/-- The journal of a run on the file at a path, if the configuration asks for events. -/
def journalFor (c : Config) (path : String) (tree : FileTree) :
    Except Failure (Option Events.Journal × FileTree) :=
  let directory := c.get "events.dir" .null
  if !directory.isTrue then .ok (none, tree)
  else do
    let format ← (Config.checkEventFormat (c.get "events.format" (.text "json"))).mapError .config
    match Events.Format.ofValue? format with
    | none => throw (.eventFormat format.display)
    | some f =>
      let (j, tree) ← (Events.Journal.create tree directory.display
        (FileTree.stem (FileTree.baseName path)) f true).mapError .file
      return (some j, tree)

/-- The satisfying values as signed integers, counted from one. -/
def literalsOf (bs : List Bool) : List Int :=
  (bs.zipIdx 1).map fun (b, i) => if b then (i : Int) else -(i : Int)

/-- What is printed about an outcome. -/
def outcomeText (o : Outcome) : String :=
  unlines
    ((match o.model with
      | some bs =>
        ["SATISFIABLE", "v " ++ String.intercalate " " ((literalsOf bs).map toString) ++ " 0"]
      | none => ["NO SOLUTION FOUND"])
      ++ ["iterations: " ++ toString o.iterations, "runtime: " ++ fixedText 4 o.runtime ++ "s"])

/-- The code of an outcome. -/
def outcomeCode (o : Outcome) : Nat :=
  if o.status = .satisfiable then codeSolved else codeNotSolved

/-- Prints the outcome of a run. -/
def report (s : Session) (r : Except Failure Outcome) : Session × Except Failure Nat :=
  match r with
  | .error e => (s, .error e)
  | .ok o => (s.print (outcomeText o), .ok (outcomeCode o))

/-- Solves the file at a path. -/
def solveFile {m : Type → Type} [Monad m] (h : Host m) (c : Config) (path : String) (s : Session) :
    m (Session × Except Failure Nat) :=
  match Dimacs.load s.tree path with
  | .error e => pure (s, .error e)
  | .ok f =>
    let s := s.log [Dimacs.loaded path f]
    match journalFor c path s.tree with
    | .error e => pure (s, .error e)
    | .ok (journal, tree) =>
      let s := { s with tree := tree }
      match Solver.create .standard c f .null [] 0 with
      | .error e => do
        match journal with
        | none => pure (s, .error e)
        | some j =>
          let clock ← h.clock
          pure (abandon clock j 0 0 e s)
      | .ok solver => do
        let (solver, r) ← h.solve journal.isSome solver
        let clock ← h.clock
        let (s, r) := account clock solver journal r s
        pure (report s r)

/-! ## Comparing the algorithms -/

/-- The integer that a setting gives. -/
def integerSetting (c : Config) (key : String) (fallback : Value) : Except Failure Int :=
  (c.get key fallback).toInteger.mapError .conversion

/-- The benchmark that the configuration describes. -/
def planOf (c : Config) : Except Failure Benchmark.Plan := do
  let n ← integerSetting c "benchmark.num_variables" .null
  let ratio ← (c.get "benchmark.clause_ratio" .null).toReal.mapError .conversion
  let size ← (Value.realOfInteger n).mapError .conversion
  let count ← (Value.roundReal (size * ratio)).mapError .conversion
  let k ← integerSetting c "benchmark.clause_size" .null
  let instances ← integerSetting c "benchmark.instances" .null
  let seed ← integerSetting c "solver.seed" (.int 0)
  let formulas ← (RandomKSat.batch n count k instances (.int seed)).mapError .ofRandomKSat
  let seeds ← integerSetting c "benchmark.seeds" .null
  return {
    formulas := formulas
    algorithms := Benchmark.standardAlgorithms
    seeds := (List.range seeds.toNat).map fun (i : Nat) => .int i
    maxIterations := c.get "benchmark.max_iterations" .null
    timeout := c.get "solver.timeout" .null }

/-- Writes the table of runs to the file at a path, unless the path is empty. -/
def saveTable (path : String) (rows : List Benchmark.Row) (s : Session) :
    Session × Except Failure Unit :=
  if path.isEmpty then (s, .ok ())
  else
    let parent := FileTree.plainParent path
    if !s.tree.isDirectory parent then (s, .error (.file (.noTableDirectory parent)))
    else match s.tree.write path (Benchmark.csv rows) with
      | .error e => (s, .error (.file e))
      | .ok tree =>
        let s := { s with tree := tree }
        (s.log [⟨logger, 20, "Wrote " ++ toString rows.length ++ " runs to " ++ path⟩], .ok ())

/-- Compares the algorithms and prints the summary. -/
def compare {m : Type → Type} [Monad m] (h : Host m) (c : Config) (path : String) (s : Session) :
    m (Session × Except Failure Nat) :=
  match planOf c with
  | .error e => pure (s, .error e)
  | .ok plan => do
    let (records, rows) ← Benchmark.run (h.solve false) .standard c plan
    let s := s.log records
    match rows with
    | .error e => pure (s, .error e)
    | .ok rows =>
      match saveTable path rows s with
      | (s, .error e) => pure (s, .error e)
      | (s, .ok ()) =>
        let summary := Benchmark.table (Benchmark.summarize (rows.map Benchmark.Row.score))
        pure (s.print (summary ++ "\n"), .ok codeSolved)

/-! ## The program -/

/-- How the program ended. -/
inductive Ending where
  /-- Reading the arguments ended it. -/
  | exit (code : Nat)
  | code (n : Nat)
  /-- An unexpected failure. -/
  | failed (f : Failure)

/-- The end of the program: how it ended, what it printed and logged, and the files it left. -/
structure Result where
  ending : Ending
  output : String
  errors : String
  tree : FileTree

/-- The configuration under the given arguments. -/
def configure (a : Arguments) (tree : FileTree) : Except Failure Config :=
  (Config.load tree (a.textFor .configFile)).map fun c =>
    a.settings.foldl (fun c (key, v) => (c.set key v).1) c

/-- Does what the arguments ask for. -/
def perform {m : Type → Type} [Monad m] (h : Host m) (a : Arguments) (s : Session) :
    m (Session × Except Failure Nat) :=
  match configure a s.tree with
  | .error e => pure (s, .error e)
  | .ok c =>
    match Log.setUp s.sink s.tree (c.get "logging.level" (.text "INFO"))
        (c.get "logging.format" .null) (c.get "logging.file" .null) with
    | (sink, tree, .error e) => pure ({ s with sink := sink, tree := tree }, .error (.logging e))
    | (sink, tree, .ok ()) =>
      let s := { s with sink := sink, tree := tree }
      match a.command with
      | .solve path => solveFile h c path s
      | _ => compare h c (a.textFor .table) s

/-- Turns what was done into the end of the program: expected failures are logged. -/
def conclude (s : Session) (r : Except Failure Nat) : Result :=
  match r with
  | .ok n => ⟨.code n, s.output, s.sink.console, s.tree⟩
  | .error e =>
    if e.isExpected then
      let s := s.log [⟨logger, 40, e.text⟩, ⟨logger, 10, traceMark⟩]
      ⟨.code codeError, s.output, s.sink.console, s.tree⟩
    else ⟨.failed e, s.output, s.sink.console, s.tree⟩

/-- Runs the program on files and arguments. -/
def run {m : Type → Type} [Monad m] (h : Host m) (tree : FileTree) (args : List String) : m Result :=
  match parse args with
  | .error (.help text) => pure ⟨.exit 0, text, "", tree⟩
  | .error (.error program message) => pure ⟨.exit 2, "", errorLine program message, tree⟩
  | .ok a =>
    if a.command = .none then pure ⟨.code codeError, programHelp, "", tree⟩
    else do
      let (s, r) ← perform h a ⟨tree, .initial, ""⟩
      pure (conclude s r)

/-- Runs the program under a clock; a run without end has no answer. -/
def run? (clock : Nat → Float) (tree : FileTree) (args : List String) : Option Result :=
  run (Host.ofClock clock) tree args

/-! ## Laws -/

theorem conclude_of_isExpected {s : Session} {e : Failure} (h : e.isExpected = true) :
    (conclude s (.error e)).ending = .code codeError := by
  simp [conclude, h]

end LocalSat.Cli
