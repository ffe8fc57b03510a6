import LocalSat.Config
import LocalSat.Log
import LocalSat.Search.Greedy
import LocalSat.Search.Walk

/-!
# Registered algorithms

The registry leads from a name to a kind of solver. A kind without a method is only the common ground of
the others and cannot be used. Main statements: a name that was registered leads to what was last
registered under it, and other names lead where they led before (`lookUp?_register_self`,
`lookUp?_register_of_ne`).

| here | there |
| --- | --- |
| `register`, `find`, `names` | `register`, `get`, `list_solvers` of the `SolverRegistry` |
-/

namespace LocalSat

open LocalSat.Search

/-- A kind of solver: its title, and its method unless it is abstract. -/
structure SolverKind where
  title : String
  method? : Option Method

namespace SolverKind

/-- The kind of a method. -/
def ofMethod (m : Method) : SolverKind := ⟨m.title, some m⟩

/-- The greedy search. -/
def greedy : SolverKind := ofMethod Greedy.method

/-- The random walk. -/
def walk : SolverKind := ofMethod Walk.method

/-- What all solvers have in common, without a method. -/
def base : SolverKind := ⟨"LocalSearchSolver", none⟩

end SolverKind

/-- Kinds of solvers by name. -/
structure Registry where
  entries : List (String × SolverKind)

namespace Registry

/-- The algorithms that are always there. -/
def standard : Registry :=
  ⟨[(Greedy.method.name, .greedy), (Walk.method.name, .walk)]⟩

/-- The kind under a name. -/
def lookUp? (r : Registry) (name : String) : Option SolverKind := r.entries.lookup name

/-- Puts a kind under a name: in place of an earlier one, else at the end. -/
def put (name : String) (kind : SolverKind) :
    List (String × SolverKind) → List (String × SolverKind)
  | [] => [(name, kind)]
  | (n, k) :: rest => if n = name then (n, kind) :: rest else (n, k) :: put name kind rest

/-- The logger of the registry. -/
def logger : String := "greedysat.solvers.registry"

/-- The warning that a name no longer leads to the kind it led to. -/
def moved (name : String) (old new : SolverKind) : LogRecord :=
  ⟨logger, Log.warning,
    "Algorithm '" ++ name ++ "' moved from " ++ old.title ++ " to " ++ new.title⟩

/-- Registers a kind, with a warning if the name led to another one. -/
def register (r : Registry) (name : String) (kind : SolverKind) : Registry × List LogRecord :=
  let warnings := match r.lookUp? name with
    | some old => if old.title = kind.title then [] else [moved name old kind]
    | none => []
  (⟨put name kind r.entries⟩, warnings)

/-- The registered names in the order of their code points. -/
def names (r : Registry) : List String :=
  (r.entries.map (·.1)).mergeSort fun a b => decide (a ≤ b)

/-- The kind under a name; a null name stands for the configured one. -/
def find (r : Registry) (c : Config) (name : Value) : Except ConfigError SolverKind :=
  let name := match name with
    | .null => c.get "solver.name" (.text Greedy.method.name)
    | v => v
  match name with
  | .text s =>
    match r.lookUp? s with
    | some k => .ok k
    | none => .error (.unknownAlgorithm s r.names)
  | v => .error (.unknownAlgorithm v.display r.names)

/-! ## Laws -/

theorem lookup_put_self (name : String) (kind : SolverKind) :
    ∀ es, (put name kind es).lookup name = some kind
  | [] => by simp [put]
  | (n, k) :: rest => by
    unfold put
    split
    · rename_i h; simp [h]
    · rename_i h
      simp [List.lookup_cons, beq_eq_false_iff_ne.2 (Ne.symm h), lookup_put_self name kind rest]

theorem lookup_put_of_ne {name other : String} (kind : SolverKind) (h : other ≠ name) :
    ∀ es, (put name kind es).lookup other = es.lookup other
  | [] => by simp [put, List.lookup_cons, beq_eq_false_iff_ne.2 h]
  | (n, k) :: rest => by
    unfold put
    split
    · rename_i hn; subst hn; simp [List.lookup_cons, beq_eq_false_iff_ne.2 h]
    · simp [List.lookup_cons, lookup_put_of_ne kind h rest]

theorem lookUp?_register_self (r : Registry) (name : String) (kind : SolverKind) :
    (r.register name kind).1.lookUp? name = some kind :=
  lookup_put_self name kind r.entries

theorem lookUp?_register_of_ne (r : Registry) {name other : String} (kind : SolverKind)
    (h : other ≠ name) : (r.register name kind).1.lookUp? other = r.lookUp? other :=
  lookup_put_of_ne kind h r.entries

end Registry

end LocalSat
