import LocalSat.Failure
import LocalSat.Files
import LocalSat.Yaml.Read
import LocalSat.Yaml.Write

/-!
# Configuration files

A configuration file is laid over the defaults; a file whose text is no tree of settings is refused. A
lone text counts as a mapping with that text as its only key.

| here | there |
| --- | --- |
| `load` | `load_config`, `_load_config_file` |
| `yaml`, `save` | `to_yaml`, `save` of a `SolverConfig` |
-/

namespace LocalSat.Config

open LocalSat.Text

/-- The settings in the text of a file: a mapping, a list, or a lone text. -/
def settings? (text : String) : Option Value :=
  match Yaml.read? text with
  | some .null => some (.mapping [])
  | some (.text s) => some (.mapping [(s, .null)])
  | some (.mapping es) => some (.mapping es)
  | some (.list vs) => some (.list vs)
  | _ => none

/-- The defaults under the settings in the file at a path; without a path the defaults. -/
def load (t : FileTree) (path : String) : Except Failure Config :=
  if path.isEmpty then .ok defaults
  else if !t.contains path then .error (.config (.fileNotFound path))
  else match t.read path with
    | .error _ => .error (.config (.unreadable path))
    | .ok octets =>
      match Utf8.decode octets with
      | .error _ => .error (.config (.unreadable path))
      | .ok cs =>
        match settings? (String.ofList cs) with
        | none => .error (.config (.unreadable path))
        | some v =>
          match defaults.update? v with
          | none => .error .mergeConflict
          | some c => .ok c

/-- The text of a configuration file. -/
def yaml (c : Config) : String := Yaml.write c.tree

/-- Writes a configuration to the file at a path, making the directories above it. -/
def save (c : Config) (t : FileTree) (path : String) : Except Failure FileTree := do
  let directory := FileTree.parent (FileTree.normal path)
  let t ← (if directory.isEmpty then .ok t else t.makeDirectories directory).mapError .file
  (t.write path c.yaml).mapError .file

theorem load_empty (t : FileTree) : load t "" = .ok defaults := by
  simp [load]

end LocalSat.Config
