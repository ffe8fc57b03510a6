import LocalSat.Events.Table
import LocalSat.Files
import LocalSat.Search.Report

/-!
# Event files

A journal writes events to files, one file per type of event, as JSON lines or as comma-separated values
with a header. A file is opened, and its old content dropped, when the first event of its type is
written after the journal was made or closed. `finalize` closes the files and may leave a description of
them beside.

| here | there |
| --- | --- |
| `Journal.create` | `create_logger` |
| `Journal.ensureOpen`, `Journal.record` | `_get_file`, `_write_event` of a `StructuredLogger` |
| `progressEvent`, `resultEvent`, `exceptionEvent` | `log_progress`, `log_result`, `log_exception` |
| `Journal.close`, `Journal.finalize` | `close`, `finalize` |
-/

namespace LocalSat.Events

open LocalSat.Decimal LocalSat.Search

/-- The two formats of event files. -/
inductive Format where
  | json
  | csv
deriving DecidableEq, Repr

/-- The format of a name. -/
def Format.ofValue? : Value → Option Format
  | .text "json" => some .json
  | .text "csv" => some .csv
  | _ => none

/-- The ending of file names. -/
def Format.ending : Format → String
  | .json => ".jsonl"
  | .csv => ".csv"

/-- An event: its type and its fields in order. -/
structure Event where
  type : String
  fields : List (String × Value)
deriving Repr

/-- What is known about the event files of one experiment. -/
structure Journal where
  directory : String
  experiment : String
  format : Format
  /-- Whether `finalize` describes the files. -/
  described : Bool
  /-- Types whose file is open. -/
  opened : List String
  /-- Number of events written since the file of each type was last opened. -/
  counts : List (String × Value)
  /-- Paths of the files, by type. -/
  paths : List (String × Value)
  /-- The description's end, once it has been written. -/
  ended : Bool

namespace Journal

/-- A journal in a directory, which is made if it is missing. -/
def create (tree : FileTree) (directory experiment : String) (format : Format) (described : Bool) :
    Except FileError (Journal × FileTree) :=
  (tree.makeDirectories directory).map fun tree =>
    (⟨directory, experiment, format, described, [], [], [], false⟩, tree)

/-- The path of the file of a type. -/
def path (j : Journal) (type : String) : String :=
  FileTree.join j.directory (j.experiment ++ "_" ++ type ++ j.format.ending)

/-- Opens the file of a type unless it is open, and tells whether it was opened now. -/
def ensureOpen (j : Journal) (tree : FileTree) (type : String) :
    Journal × Except FileError (FileTree × Bool) :=
  if j.opened.contains type then (j, .ok (tree, false))
  else
    let path := j.path type
    let j := { j with paths := Value.insert type (.text path) j.paths }
    match tree.openFile true path with
    | .error e => (j, .error e)
    | .ok tree =>
      ({ j with opened := type :: j.opened, counts := Value.insert type (.int 0) j.counts },
        .ok (tree, true))

/-- The text of an event in its file; `first` tells that it is the first one there. Events number runs,
iterations and clauses, so their integers are not asked whether they can be printed. -/
def eventText (format : Format) (first : Bool) (fields : List (String × Value)) : String :=
  match format with
  | .json => (Value.mapping fields).json ++ "\n"
  | .csv =>
    (if first then csvRow "\r\n" (fields.map (·.1)) else "")
      ++ csvRow "\r\n" (fields.map fun (_, v) => csvText v)

/-- Raises the count of a type by one. -/
def countUp (type : String) (counts : List (String × Value)) : List (String × Value) :=
  match Value.lookup? type counts with
  | some (.int n) => Value.insert type (.int (n + 1)) counts
  | _ => counts

/-- Writes an event. -/
def record (j : Journal) (tree : FileTree) (e : Event) : Journal × Except FileError FileTree :=
  match j.ensureOpen tree e.type with
  | (j, .error err) => (j, .error err)
  | (j, .ok (tree, first)) =>
    ({ j with counts := countUp e.type j.counts },
      .ok (tree.append (j.path e.type) (eventText j.format first e.fields)))

/-- Closes all files. -/
def close (j : Journal) : Journal := { j with opened := [] }

/-- The description of the files. -/
def description (j : Journal) : Value :=
  .mapping
    [("experiment_name", .text j.experiment), ("start_time", .text "<time>"),
     ("log_files", .mapping j.paths), ("end_time", .text "<time>"),
     ("record_counts", .mapping j.counts)]

/-- Closes all files and writes the description, if one is wanted; the answer is its path. -/
def finalize (j : Journal) (tree : FileTree) : Journal × Except FileError (FileTree × String) :=
  let j := j.close
  if !j.described then (j, .ok (tree, ""))
  else
    let path := FileTree.join j.directory (j.experiment ++ "_metadata.json")
    let j := { j with ended := true }
    (j, (tree.write path j.description.jsonIndented).map fun tree => (tree, path))

end Journal

/-! ## The types of events -/

/-- The share of satisfied clauses, one if there are no clauses. It is meant for numbers of clauses; the
program fails where the quotient of two integers is beyond the range of doubles, and here it is infinite. -/
def share (unsatisfied total : Value) : Float :=
  match unsatisfied.integer?, total.integer? with
  | some u, some n => if 0 < n then ratio (n - u) n else 1.0
  | _, _ => 1.0

/-- A new least number of unsatisfied clauses. -/
def progressEvent (run iteration unsatisfied total : Value) (time : Float) : Event where
  type := "progress"
  fields :=
    [("run", run), ("iteration", iteration), ("unsatisfied_count", unsatisfied),
     ("total_count", total), ("satisfaction_ratio", .real (share unsatisfied total)),
     ("timestamp", .real time)]

/-- The outcome of a run; a field of the outcome named like one of the event's own replaces it, and the
time stands where that field stood. -/
def resultEvent (run : Value) (fields : List (String × Value)) (time : Float) : Event where
  type := "result"
  fields := Value.insert "timestamp" (.real time)
    (fields.foldl (fun es (k, v) => Value.insert k v es) [("run", run)])

/-- An error that ended a run. -/
def exceptionEvent (run kind message trace : Value) (time : Float) : Event where
  type := "exception"
  fields :=
    [("run", run), ("exception_type", kind), ("exception_message", message), ("stack_trace", trace),
     ("timestamp", .real time)]

/-- The event that a notice of a search is recorded as, if it is dated. -/
def ofNotice? (clock : Nat → Float) : Notice → Option Event
  | .progress run i u total (some reading) =>
    some (progressEvent (.int run) (.int i) (.int u) (.int total) (clock reading))
  | .finished run o (some reading) =>
    some (resultEvent (.int run) o.report.fields (clock reading))
  | _ => none

/-- Writes the events of notices in order, up to the first that cannot be written. -/
def Journal.recordAll (clock : Nat → Float) (j : Journal) (tree : FileTree) :
    List Notice → Journal × FileTree × Except FileError Unit
  | [] => (j, tree, .ok ())
  | n :: ns =>
    match ofNotice? clock n with
    | none => recordAll clock j tree ns
    | some e =>
      match j.record tree e with
      | (j, .error err) => (j, tree, .error err)
      | (j, .ok tree) => recordAll clock j tree ns

end LocalSat.Events
