import LocalSat.Decimal.Number
import LocalSat.Text.Integer
import LocalSat.Search.State

/-!
# Running a search

A run starts a method afresh and repeats its step until the formula is satisfied, the method gives up, or
a limit is reached. What happens on the way is noted in order: each new least number of unsatisfied
clauses, a limit that was reached, and the outcome. The number of rounds is bounded by the iteration limit
or else by the method's own bound, and no run of a task without such an end is answered.

A run comes in parts, and a `Timer` says at what time each part is done: `loopBy` and `solveBy` go through
the parts for any timer. A clock that is known beforehand is a function from the number of its reading to
a time, and by such a clock a run is a function of its task (`loop`, `solveWithin`). Main statements: the
equations of these two (`loop_succ`, `solveWithin_eq`).

| here | there |
| --- | --- |
| `Status`, `Outcome` | `SolverStatus`, `SolverResult` |
| `reset` | `LocalSearchSolver.reset` |
| `update` | `LocalSearchSolver._update_state` |
| `launch`; `limited` and `round`; `outcome` | before, in and after the loop of `LocalSearchSolver.solve` |
| `solveWithin` | `LocalSearchSolver.solve` |
-/

namespace LocalSat.Search

open LocalSat.Decimal

/-! ## Tasks and outcomes -/

/-- The values that a run starts from. -/
inductive Start where
  /-- A truth value drawn for each variable. -/
  | random
  /-- No variable assigned. -/
  | unassigned
deriving DecidableEq, Repr

/-- What stops a run from outside. -/
inductive Limit where
  | never
  | at (n : Number)
  /-- A limit of a kind that cannot be compared with a number. -/
  | incomparable (kind : String)
deriving Repr

/-- All that a run depends on, apart from the number of earlier runs and readings of the clock. -/
structure Task where
  formula : Formula
  method : Method
  start : Start
  /-- The generator that every run begins with, or why the seed yields none. -/
  generator : Except Random.Error Random.Generator
  maxIterations : Limit
  timeout : Limit
  clock : Nat → Float
  /-- Whether progress is recorded with the time, which costs a reading of the clock. -/
  recorded : Bool

/-- How a run ended. -/
inductive Status where
  | satisfiable
  | exhausted
  /-- Stopped by a limit. -/
  | timeout
deriving DecidableEq, Repr

/-- The status as it is reported. -/
def Status.name : Status → String
  | .satisfiable => "satisfiable"
  | .exhausted => "exhausted"
  | .timeout => "timeout"

/-- The outcome of a run. -/
structure Outcome where
  status : Status
  iterations : Nat
  /-- The satisfying truth values; a variable left unassigned is given as false. -/
  model : Option (List Bool)
  runtime : Float
  satisfiedClauses : Nat
  totalClauses : Nat
  method : String
  /-- The least number of unsatisfied clauses, then the method's counters. -/
  counters : List (String × Int)

/-- What is noted during a run; `reading` is the number of the clock reading that dates a record. -/
inductive Notice where
  | progress (run iterations unsatisfied total : Nat) (reading : Option Nat)
  | iterationLimit
  | timeLimit
  | finished (run : Nat) (outcome : Outcome) (reading : Option Nat)

/-- The number of the reading that dates a notice, if it is dated. -/
def Notice.reading? : Notice → Option Nat
  | .progress _ _ _ _ reading => reading
  | .finished _ _ reading => reading
  | _ => none

/-- A search in progress: its state, the readings of the clock so far, and the notices, latest first. -/
structure Run where
  state : State
  readings : Nat
  notices : List Notice

/-- The truth values of an assignment, false for unassigned variables. -/
def completion (a : Assignment) : List Bool := a.values.toList.map (·.getD false)

/-! ## Limits -/

/-- Whether a count has come up to a limit. -/
def Limit.reachedBy (l : Limit) (n : Nat) : Except Fault Bool :=
  match l with
  | .never => .ok false
  | .at m => .ok (m.atMostNat n)
  | .incomparable kind => .error (.incomparable "int" kind)

/-- Whether a duration has come up to a limit. -/
def Limit.reachedIn (l : Limit) (t : Float) : Except Fault Bool :=
  match l with
  | .never => .ok false
  | .at m => .ok (m.atMostReal t)
  | .incomparable kind => .error (.incomparable "float" kind)

/-- The limit can be named in a note: it is no integer of too many digits. -/
def Limit.Printable : Limit → Prop
  | .at (.int n) => Text.Printable n
  | _ => True

instance : (l : Limit) → Decidable l.Printable
  | .never => inferInstanceAs (Decidable True)
  | .at (.int n) => inferInstanceAs (Decidable (Text.Printable n))
  | .at (.real _) => inferInstanceAs (Decidable True)
  | .incomparable _ => inferInstanceAs (Decidable True)

/-- Rounds after which a limit on a count that grows in every round has surely been reached. -/
def Limit.rounds? : Limit → Option Nat
  | .never => none
  | .at (.int n) => some (n.toNat + 2)
  | .at (.real x) =>
    match Binary.ofFloat? x with
    | some b => some ((b.fraction.1 / b.fraction.2).toNat + 3)
    | none => if x < 0 then some 2 else none
  | .incomparable _ => some 2

namespace Task

/-- The rounds that a run of the task is given. -/
def rounds (t : Task) : Nat := t.maxIterations.rounds?.getD (t.method.bound t.formula)

/-! ## One round -/

/-- The number of clauses that the present assignment does not satisfy. -/
def unsatisfied (t : Task) (s : State) : Except Fault Nat :=
  (t.formula.unsatisfiedCount s.assignment.look).mapError .outOfRange

/-- Notes a new least number of unsatisfied clauses. -/
def improve (t : Task) (r : Run) (u : Nat) : Run where
  state := { r.state with best := u }
  readings := if t.recorded then r.readings + 1 else r.readings
  notices := .progress r.state.runs r.state.iterations u t.formula.size
    (if t.recorded then some r.readings else none) :: r.notices

/-- Scores the assignment anew; when nothing is unsatisfied the run is solved. -/
def update (t : Task) (r : Run) : Run × Except Fault Nat :=
  match t.unsatisfied r.state with
  | .error e => (r, .error e)
  | .ok u =>
    let r := if u < r.state.best then t.improve r u else r
    ({ r with state := { r.state with phase := if u = 0 then .solved else r.state.phase } }, .ok u)

/-- One iteration of the method, and a new score if the search goes on. -/
def round (t : Task) (r : Run) : Run × Except Fault Unit :=
  match t.method.step t.formula r.state with
  | (s, .error e) => ({ r with state := s }, .error e)
  | (s, .ok ()) =>
    let r := { r with state := s }
    if s.phase = .searching then
      let (r, u) := t.update r
      (r, u.map fun _ => ())
    else (r, .ok ())

/-- Stops a run at a limit that it has come up to. The limit is noted by its name, which is where a limit
of too many digits fails. -/
def stop (r : Run) (l : Limit) (n : Notice) : Run × Except Fault Bool :=
  if l.Printable then ({ r with notices := n :: r.notices }, .ok true) else (r, .error .tooLong)

/-- Tests the limits; the clock is read only if there is a time limit and the iterations may go on. -/
def limited (t : Task) (started : Float) (r : Run) : Run × Except Fault Bool :=
  match t.maxIterations.reachedBy r.state.iterations with
  | .error e => (r, .error e)
  | .ok true => stop r t.maxIterations .iterationLimit
  | .ok false =>
    match t.timeout with
    | .never => (r, .ok false)
    | limit =>
      let elapsed := t.clock r.readings - started
      let r := { r with readings := r.readings + 1 }
      match limit.reachedIn elapsed with
      | .error e => (r, .error e)
      | .ok true => stop r limit .timeLimit
      | .ok false => (r, .ok false)

/-! ## A whole run -/

/-- The values that a run starts from, and the generator after they have been drawn. -/
def startValues (t : Task) (g : Random.Generator) : Assignment × Random.Generator :=
  match t.start with
  | .unassigned => (.unassigned t.formula.numVariables, g)
  | .random =>
    let (bs, g) := g.coins t.formula.numVariables
    (.ofBools bs, g)

/-- Drops what earlier runs left behind and starts from fresh values. -/
def reset (t : Task) (r : Run) : Run × Except Fault Unit :=
  let s := { r.state with closed := ∅, moves := 0, backtracks := 0 }
  match t.generator with
  | .error e => ({ r with state := s }, .error (.random e))
  | .ok g =>
    let (a, g) := t.startValues g
    let s := { s with generator := g, assignment := a, iterations := 0, phase := .searching }
    match t.unsatisfied s with
    | .error e => ({ r with state := s }, .error e)
    | .ok u =>
      let (r, u) := t.update { r with state := { s with best := u } }
      (r, u.map fun _ => ())

/-- What a run counted. -/
def counters (t : Task) (s : State) : List (String × Int) :=
  ("best_unsatisfied", (s.best : Int)) :: t.method.counters s

/-- The status of a run that has ended. -/
def status (s : State) (stopped : Bool) : Status :=
  if stopped then .timeout else if s.phase = .solved then .satisfiable else .exhausted

/-- The outcome of a run that has ended. -/
def outcome (t : Task) (started : Float) (stopped : Bool) (r : Run) : Run × Except Fault Outcome :=
  let runtime := t.clock r.readings - started
  let r := { r with readings := r.readings + 1 }
  match t.formula.satisfiedCount r.state.assignment.look with
  | .error e => (r, .error (.outOfRange e))
  | .ok n =>
    let st := status r.state stopped
    let o : Outcome :=
      { status := st
        iterations := r.state.iterations
        model := if st = .satisfiable then some (completion r.state.assignment) else none
        runtime := runtime
        satisfiedClauses := n
        totalClauses := t.formula.size
        method := t.method.name
        counters := t.counters r.state }
    ({ r with
        readings := if t.recorded then r.readings + 1 else r.readings
        notices := .finished r.state.runs o (if t.recorded then some r.readings else none)
          :: r.notices }, .ok o)

/-- Begins a run: counts it, reads the clock, and starts afresh. -/
def launch (t : Task) (r : Run) : Run × Except Fault Unit :=
  t.reset
    { r with state := { r.state with runs := r.state.runs + 1 }, readings := r.readings + 1 }

/-- Begins a run, and tells when. -/
def begin (t : Task) (r : Run) : Run × Except Fault Float :=
  let started := t.clock r.readings
  match t.launch r with
  | (r, .error e) => (r, .error e)
  | (r, .ok ()) => (r, .ok started)

end Task

/-! ## The parts of a run in time -/

/-- Does the parts of runs, each on the task as it is at the time of the part. -/
structure Timer (m : Type → Type) where
  within {α : Type} (t : Task) (r : Run) (part : Task → Run → Run × α) : m (Run × α)

/-- The clock of the task is known beforehand, for all of its readings. -/
def Timer.known : Timer Id where
  within t r part := part t r

theorem Timer.within_known {α : Type} (t : Task) (r : Run) (part : Task → Run → Run × α) :
    Timer.known.within t r part = pure (part t r) := rfl

namespace Task

/-- Repeats rounds while the run is searching and no limit is reached, and tells whether a limit ended
it; without an end within the given rounds there is no answer. -/
def loopBy {m : Type → Type} [Monad m] (timer : Timer m) (t : Task) (started : Float) :
    Nat → Run → m (Option (Run × Except Fault Bool))
  | 0, _ => pure none
  | rounds + 1, r =>
    if r.state.phase ≠ .searching then pure (some (r, .ok false))
    else do
      match ← timer.within t r (·.limited started) with
      | (r, .error e) => pure (some (r, .error e))
      | (r, .ok true) => pure (some (r, .ok true))
      | (r, .ok false) =>
        match ← timer.within t r round with
        | (r, .error e) => pure (some (r, .error e))
        | (r, .ok ()) => loopBy timer t started rounds r

/-- One run from the start to its end, if it takes less than the given rounds. -/
def solveBy {m : Type → Type} [Monad m] (timer : Timer m) (t : Task) (rounds : Nat) (r : Run) :
    m (Option (Run × Except Fault Outcome)) := do
  match ← timer.within t r begin with
  | (r, .error e) => pure (some (r, .error e))
  | (r, .ok started) =>
    match ← t.loopBy timer started rounds r with
    | none => pure none
    | some (r, .error e) => pure (some (r, .error e))
    | some (r, .ok stopped) => return some (← timer.within t r (·.outcome started stopped))

/-- The loop by the task's clock. -/
def loop (t : Task) (started : Float) (rounds : Nat) (r : Run) : Option (Run × Except Fault Bool) :=
  (t.loopBy .known started rounds r).run

/-- One run by the task's clock, if it takes less than the given rounds. -/
def solveWithin (t : Task) (rounds : Nat) (r : Run) : Option (Run × Except Fault Outcome) :=
  (t.solveBy .known rounds r).run

/-! ## Equations by a known clock -/

theorem loop_succ (t : Task) (started : Float) (rounds : Nat) (r : Run) :
    t.loop started (rounds + 1) r =
      if r.state.phase ≠ .searching then some (r, .ok false)
      else match t.limited started r with
        | (r, .error e) => some (r, .error e)
        | (r, .ok true) => some (r, .ok true)
        | (r, .ok false) =>
          match t.round r with
          | (r, .error e) => some (r, .error e)
          | (r, .ok ()) => t.loop started rounds r := by
  simp only [loop, loopBy, Timer.within_known, pure_bind]
  split
  · rfl
  · obtain ⟨r₁, e | _ | _⟩ := t.limited started r
    · rfl
    · obtain ⟨r₂, e | _⟩ := t.round r₁ <;> rfl
    · rfl

theorem solveWithin_eq (t : Task) (rounds : Nat) (r : Run) : t.solveWithin rounds r =
    match t.launch r with
    | (r', .error e) => some (r', .error e)
    | (r', .ok ()) =>
      match t.loop (t.clock r.readings) rounds r' with
      | none => none
      | some (r'', .error e) => some (r'', .error e)
      | some (r'', .ok stopped) => some (t.outcome (t.clock r.readings) stopped r'') := by
  simp only [solveWithin, solveBy, Timer.within_known, pure_bind, begin, loop]
  obtain ⟨r', e | _⟩ := t.launch r
  · rfl
  · simp only [Id.run_bind]
    obtain _ | ⟨r'', e | _⟩ := (t.loopBy .known (t.clock r.readings) rounds r').run <;> rfl

end Task

end LocalSat.Search
