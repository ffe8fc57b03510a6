import LocalSat.Search.State

/-!
# Steepest descent with a closed set

The greedy search makes the move that leaves the fewest clauses unsatisfied, among the moves that change
a variable of an unsatisfied clause and do not lead into closed values. The values it leaves are closed.
When every neighbour is closed it takes its latest move back, and when there is none to take back the
search is exhausted.

| here | there |
| --- | --- |
| `candidateMoves` | `GreedySolver.candidate_moves` |
| `selectMove` | `GreedySolver.select_move` |
| `step`: `close`, then `advance` or `backtrack` | `GreedySolver.step` |
| `counters` | `GreedySolver.statistics` |
-/

namespace LocalSat.Search.Greedy

/-- The moves that change the given variables, in their order. -/
def flipsOf (a : Assignment) : List Int → Except OutOfRange (List Move)
  | [] => .ok []
  | i :: is =>
    match a.flips i with
    | .error e => .error e
    | .ok ms => (flipsOf a is).map (ms ++ ·)

/-- The moves that change a variable of an unsatisfied clause. -/
def candidateMoves (f : Formula) (a : Assignment) : Except OutOfRange (List Move) :=
  match f.candidates a.look with
  | .error e => .error e
  | .ok is => flipsOf a is

/-- How many clauses a move leaves unsatisfied. -/
def score (f : Formula) (a : Assignment) (m : Move) : Except OutOfRange Nat :=
  match a.apply m with
  | .error e => .error e
  | .ok b => f.unsatisfiedCount b.look

/-- The best of the chosen move so far and a further one: the earlier of two equally good ones. -/
def better (best : Option (Move × Nat)) (m : Move) (n : Nat) : Option (Move × Nat) :=
  match best with
  | none => some (m, n)
  | some (m', n') => if n < n' then some (m, n) else some (m', n')

/-- Goes through the moves with the best open one so far. -/
def selectFrom (f : Formula) (closed : Std.HashSet Fingerprint) (a : Assignment) :
    Option (Move × Nat) → List Move → Except OutOfRange (Option (Move × Nat))
  | best, [] => .ok best
  | best, m :: ms =>
    match a.fingerprintAfter m with
    | .error e => .error e
    | .ok key =>
      if closed.contains key then selectFrom f closed a best ms
      else match score f a m with
        | .error e => .error e
        | .ok n => selectFrom f closed a (better best m n) ms

/-- The first of the best moves that do not lead into closed values. -/
def selectMove (f : Formula) (closed : Std.HashSet Fingerprint) (a : Assignment) (ms : List Move) :
    Except OutOfRange (Option Move) :=
  (selectFrom f closed a none ms).map (Option.map Prod.fst)

/-- Takes the latest move back; without one the search is exhausted, which counts as no iteration. -/
def backtrack (s : State) : State × Except Fault Unit :=
  if s.assignment.history.isEmpty then ({ s with phase := .exhausted }, .ok ())
  else match s.assignment.undo? with
    | none => (s, .error .emptyHistory)
    | some a =>
      ({ s with assignment := a, backtracks := s.backtracks + 1, iterations := s.iterations + 1 },
        .ok ())

/-- Makes a move. -/
def advance (s : State) (m : Move) : State × Except Fault Unit :=
  match s.assignment.apply m with
  | .error e => (s, .error (.outOfRange e))
  | .ok a =>
    ({ s with assignment := a, moves := s.moves + 1, iterations := s.iterations + 1 }, .ok ())

/-- Closes the present values. -/
def close (s : State) : State :=
  { s with closed := s.closed.insert s.assignment.fingerprint }

/-- One greedy iteration. -/
def step (f : Formula) (s : State) : State × Except Fault Unit :=
  match candidateMoves f s.assignment with
  | .error e => (s, .error (.outOfRange e))
  | .ok ms =>
    let s := close s
    match selectMove f s.closed s.assignment ms with
    | .error e => (s, .error (.outOfRange e))
    | .ok none => backtrack s
    | .ok (some m) => advance s m

/-- The counters of a greedy search. -/
def counters (s : State) : List (String × Int) :=
  [("moves", s.moves), ("backtracks", s.backtracks), ("closed_states", s.closed.size),
   ("path_length", s.assignment.history.length)]

/-- The variables that occur in a formula, each once. -/
def occurring (f : Formula) : List Int :=
  firstOccurrences [] (f.clauses.flatMap Clause.vars)

/-- The greedy method. Every value of the occurring variables is entered at most once and left at most
once, which bounds its rounds. -/
def method : Method where
  name := "greedy"
  title := "GreedySolver"
  guided := true
  step := step
  counters := counters
  bound f := 2 * Nat.pow 3 (occurring f).length + 2

end LocalSat.Search.Greedy
