import LocalSat.Config.Tree
import LocalSat.Value.Display

/-!
# References inside configurations

A text may refer to other values of its configuration by `$` and a dotted path in braces. A text that is
one reference stands for the value referred to, of whatever kind; in a longer text references are spliced
in as they are displayed. References may lead to further references, which are followed to a depth that
only a circle exceeds.

| here | there |
| --- | --- |
| `follow`, `resolve` | `OmegaConf.select` |
| `resolveAll` | `OmegaConf.to_container` |
-/

namespace LocalSat.Config

open LocalSat.Text

/-- A stretch of a text with references. -/
inductive Part where
  | plain (cs : List Char)
  | reference (path : List String)
deriving DecidableEq, Repr

/-- Why a reference cannot be followed. -/
inductive Unresolved where
  /-- Nothing stands at the path. -/
  | missing
  /-- The text is no well-formed reference, or the references go round in a circle. -/
  | malformed
deriving DecidableEq, Repr

/-- Puts a character in front of the first part. -/
def Part.push (c : Char) : List Part → List Part
  | .plain cs :: ps => .plain (c :: cs) :: ps
  | ps => .plain [c] :: ps

/-- The parts of a text; `inside` holds the characters of an open reference, the latest first. -/
def partsFrom : Option (List Char) → List Char → Option (List Part)
  | none, [] => some []
  | some _, [] => none
  | none, '$' :: '\x7b' :: cs => partsFrom (some []) cs
  | none, c :: cs => (partsFrom none cs).map (Part.push c)
  | some acc, c :: cs =>
    if c == '\x7d' then
      (partsFrom none cs).map (.reference (path (String.ofList (strip acc.reverse))) :: ·)
    else partsFrom (some (c :: acc)) cs

/-- The parts of a text, if its references are well formed. -/
def parts? (s : String) : Option (List Part) := partsFrom none s.toList

/-- The text that marks a value as still to be given. -/
def toBeGiven : String := "???"

/-- Follows a path from a value, each value on the way being resolved first. -/
def follow (resolve : Value → Except Unresolved Value) : Value → List String → Except Unresolved Value
  | v, [] => resolve v
  | v, k :: ks => do
    match child? (← resolve v) k with
    | some w => follow resolve w ks
    | none => .error .missing

/-- Splices resolved references into a text. -/
def splice (lookUp : List String → Except Unresolved Value) : List Part → Except Unresolved String
  | [] => .ok ""
  | .plain cs :: ps => (splice lookUp ps).map (String.ofList cs ++ ·)
  | .reference p :: ps => do
    let v ← lookUp p
    return v.display ++ (← splice lookUp ps)

/-- The value that a value of the tree `root` stands for, references followed to a depth. -/
def resolve (root : Value) : Nat → Value → Except Unresolved Value
  | 0, _ => .error .malformed
  | depth + 1, .text s =>
    match parts? s with
    | none => .error .malformed
    | some [.reference p] => follow (resolve root depth) root p
    | some ps => (splice (follow (resolve root depth) root) ps).map .text
  | _ + 1, v => .ok v

/-- The value with everything inside it resolved as well. -/
def resolveAll (root : Value) (limit : Nat) : Nat → Value → Except Unresolved Value
  | 0, _ => .error .malformed
  | depth + 1, v => do
    match ← resolve root limit v with
    | .list vs => return .list (← vs.mapM (resolveAll root limit depth))
    | .mapping es =>
      return .mapping (← es.mapM fun (k, w) => do return (k, ← resolveAll root limit depth w))
    | w => return w

mutual

/-- Number of values in a tree. -/
def weight : Value → Nat
  | .list vs => weightAll vs + 1
  | .mapping es => weightEntries es + 1
  | _ => 1

/-- Number of values in a list. -/
def weightAll : List Value → Nat
  | [] => 0
  | v :: vs => weight v + weightAll vs

/-- Number of values in entries. -/
def weightEntries : List (String × Value) → Nat
  | [] => 0
  | (_, v) :: es => weight v + weightEntries es

end

/-- A depth that no chain of references without a circle reaches. -/
def depthBound (root : Value) : Nat := weight root + 1

end LocalSat.Config
