import LocalSat.Dimacs.Read
import LocalSat.Dimacs.Write
import LocalSat.Failure
import LocalSat.Files

/-!
# DIMACS files

Loading a formula from a file and saving it to one. Main statement: what loading yields depends on the
file's octets alone (`load_of_read`).

| here | there |
| --- | --- |
| `load`, `save` | `load_cnf_file`, `save_cnf_file` |
-/

namespace LocalSat.Dimacs

/-- The logger of formula files. -/
def logger : String := "greedysat.utils.cnf"

/-- The record that a formula has been loaded. -/
def loaded (path : String) (f : Formula) : LogRecord :=
  ⟨logger, 20, "Loaded " ++ path ++ ": " ++ toString f.numVariables ++ " variables, "
    ++ toString f.size ++ " clauses"⟩

/-- The formula in the file at a path. -/
def load (t : FileTree) (path : String) : Except Failure Formula :=
  if !t.contains path then .error (.file (.noFormula path))
  else match t.read path with
    | .error e => .error (.file e)
    | .ok octets => (readOctets path octets).mapError .input

/-- Writes a formula to the file at a path. -/
def save (t : FileTree) (path : String) (f : Formula) (comments : Option (List String)) :
    Except Failure FileTree :=
  (t.write path (write f comments)).mapError .file

theorem load_of_read {t : FileTree} {path : String} {octets : List UInt8}
    (h : t.read path = .ok octets) : load t path = (readOctets path octets).mapError .input := by
  have hc : t.contains path = true := by
    unfold FileTree.read at h
    unfold FileTree.contains
    split at h <;> simp_all
  simp [load, hc, h]

end LocalSat.Dimacs
