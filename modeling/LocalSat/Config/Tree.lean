import LocalSat.Text.Integer
import LocalSat.Value

/-!
# Configuration trees

A configuration is a tree of mappings. `child?` steps down by one key, `put` sets the value at a path and
makes the mappings that are missing on the way, and `merge` lays one tree over another. A list and a
mapping cannot be merged; what was merged before the conflict stays, and the flag tells of the conflict.

| here | there |
| --- | --- |
| `merge` | `OmegaConf.merge` |
| `put` | `OmegaConf.update` |
-/

namespace LocalSat.Config

open LocalSat.Text

/-- The keys of a dotted path. -/
def path (key : String) : List String := fields '.' key

/-- The entry of a mapping under a key, or of a list at a position. -/
def child? : Value → String → Option Value
  | .mapping es, k => Value.lookup? k es
  | .list vs, k =>
    match integer? k.toList with
    | some n => if n < 0 then none else vs[n.toNat]?
    | none => none
  | _, _ => none

/-- Whether a value holds further values. -/
def isContainer : Value → Bool
  | .mapping _ => true
  | .list _ => true
  | _ => false

mutual

/-- The value `v` laid over what is there: mappings merge, a list and a mapping are in conflict, and
anything else replaces. -/
def merge (there : Option Value) (v : Value) : Value × Bool :=
  match v with
  | .mapping es =>
    match there with
    | some (.mapping ds) => let (ds, ok) := mergeEntries ds es; (.mapping ds, ok)
    | some (.list ds) => (.list ds, false)
    | _ => (.mapping es, true)
  | .list vs =>
    match there with
    | some (.mapping ds) => (.mapping ds, false)
    | _ => (.list vs, true)
  | v => (v, true)

/-- Lays entries over entries, in order, up to the first conflict. -/
def mergeEntries (ds : List (String × Value)) : List (String × Value) → List (String × Value) × Bool
  | [] => (ds, true)
  | (k, v) :: es =>
    let (w, ok) := merge (Value.lookup? k ds) v
    if ok then mergeEntries (Value.insert k w ds) es else (Value.insert k w ds, false)

end

/-- Replaces the entry of a list at a position. -/
def putAt (vs : List Value) (k : String) (v : Value) : List Value :=
  match integer? k.toList with
  | some n => if n < 0 then vs else vs.set n.toNat v
  | none => vs

/-- What a container becomes when its entry under a key is replaced. -/
def withChild (tree : Value) (k : String) (v : Value) : Value :=
  match tree with
  | .list vs => .list (putAt vs k v)
  | .mapping es => .mapping (Value.insert k v es)
  | _ => .mapping [(k, v)]

/-- Sets the value at a path. Whatever is no container on the way is replaced by a mapping; a container
is merged into a container that is already there. -/
def put (v : Value) : List String → Value → Value × Bool
  | [], tree => (tree, true)
  | [k], tree =>
    match child? tree k with
    | some w =>
      if isContainer v && isContainer w then
        let (w, ok) := merge (some w) v
        (withChild tree k w, ok)
      else (withChild tree k v, true)
    | none => (withChild tree k v, true)
  | k :: ks, tree =>
    let next := ((child? tree k).filter isContainer).getD (.mapping [])
    let (w, ok) := put v ks next
    (withChild tree k w, ok)

end LocalSat.Config
