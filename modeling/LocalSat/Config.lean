import LocalSat.Config.Reference

/-!
# Configurations

A configuration starts from the defaults and is changed by `set` and `update`. `get` answers with the
default that it is given when the key is missing, null, still to be given, or a reference that leads
nowhere. Values are stored as they are written; references are followed when a value is read.

| here | there |
| --- | --- |
| `get`, `set`, `update?`, `resolved` | `get`, `set`, `update`, `to_dict` of a `SolverConfig` |
| `checkInitialization`, `checkEventFormat` | `validate_initialization`, `validate_events_format` |
-/

namespace LocalSat

/-- What is wrong with a configuration or with a value in it. -/
inductive ConfigError where
  | fileNotFound (path : String)
  | unreadable (path : String)
  /-- The algorithm is not among the registered ones. -/
  | unknownAlgorithm (name : String) (known : List String)
  | unknownInitialization (name : String)
  | unknownEventFormat (name : String)
  | unknownLevel (name : String)
deriving DecidableEq, Repr

/-- A tree of settings. -/
structure Config where
  tree : Value
deriving Repr

namespace Config

/-- The settings of a program that nobody configured. -/
def defaults : Config where
  tree := .mapping
    [("solver", .mapping
      [("name", .text "greedy"), ("seed", .int 0), ("initialization", .text "random"),
       ("max_iterations", .null), ("timeout", .null)]),
     ("logging", .mapping
      [("level", .text "INFO"), ("file", .null),
       ("format", .text "%(asctime)s - %(name)s - %(levelname)s - %(message)s")]),
     ("events", .mapping [("dir", .null), ("format", .text "json")]),
     ("benchmark", .mapping
      [("num_variables", .int 20), ("clause_ratio", .real 4.26), ("clause_size", .int 3),
       ("instances", .int 5), ("seeds", .int 3), ("max_iterations", .int 10000)])]

/-- Whether a value counts as not set. -/
def isUnset : Value → Bool
  | .null => true
  | .text s => s == toBeGiven
  | _ => false

/-- The value under a dotted key, or the default; the empty key stands for the whole tree. -/
def get (c : Config) (key : String) (fallback : Value) : Value :=
  let depth := depthBound c.tree
  let keys := if key.isEmpty then [] else path key
  match follow (resolve c.tree depth) c.tree keys with
  | .error _ => fallback
  | .ok v =>
    if isUnset v then fallback
    else match resolveAll c.tree depth depth v with
      | .ok w => w
      | .error _ => v

/-- Whether a key has a value. -/
def contains (c : Config) (key : String) : Bool :=
  match c.get key .null with
  | .null => false
  | _ => true

/-- Sets the value under a dotted key, and tells whether nothing was in conflict. -/
def set (c : Config) (key : String) (v : Value) : Config × Bool :=
  let (tree, ok) := put v (path key) c.tree
  (⟨tree⟩, ok)

/-- Lays a tree over the configuration; on a conflict there is no new configuration. -/
def update? (c : Config) (v : Value) : Option Config :=
  match merge (some c.tree) v with
  | (tree, true) => some ⟨tree⟩
  | (_, false) => none

/-- The whole tree with its references followed. -/
def resolved (c : Config) : Except Unresolved Value :=
  resolveAll c.tree (depthBound c.tree) (depthBound c.tree) c.tree

/-! ## Values with few choices -/

/-- The start values that a search knows. -/
def initializations : List String := ["random", "unassigned"]

/-- The formats of event files. -/
def eventFormats : List String := ["json", "csv"]

/-- The value, if it names start values. -/
def checkInitialization (v : Value) : Except ConfigError Value :=
  if initializations.any (fun s => v == .text s) then .ok v
  else .error (.unknownInitialization v.display)

/-- The value, if it names a format of event files. -/
def checkEventFormat (v : Value) : Except ConfigError Value :=
  if eventFormats.any (fun s => v == .text s) then .ok v
  else .error (.unknownEventFormat v.display)

end Config

end LocalSat
