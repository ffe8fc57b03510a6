import LocalSat.Value.Display

/-!
# Complaints

A complaint is an error about formulas, searches and settings in the form in which it is shown: of one of
seven kinds, with a message made of its parts. Kinds specialise one another: a fault of a clause is a
fault of the input, which is a complaint. Main statements: the name of a kind comes first among the names
of what it is a case of (`head_lineage`), and a line number or a key stands in a message exactly if it is
given (`withLine_null`, `withKey_null`).

| here | there |
| --- | --- |
| `Kind.general` | `SATBaseException` |
| `Kind.input`, `Kind.header` | `DimacsFormatError`, `MalformedHeaderError` |
| `Kind.countMismatch`, `Kind.clause` | `ClauseCountMismatchError`, `InvalidClauseError` |
| `Kind.emptyHistory`, `Kind.config` | `EmptyHistoryError`, `ConfigurationError` |
-/

namespace LocalSat

namespace Complaint

/-- The kinds of complaints. -/
inductive Kind where
  | general
  /-- About the input as a whole. -/
  | input
  /-- About the problem line. -/
  | header
  /-- About the number of clauses. -/
  | countMismatch
  /-- About a clause. -/
  | clause
  /-- About a move that cannot be taken back. -/
  | emptyHistory
  /-- About a setting. -/
  | config
deriving DecidableEq, Repr

namespace Kind

/-- All kinds. -/
def all : List Kind := [general, input, header, countMismatch, clause, emptyHistory, config]

/-- The name of a kind. -/
def name : Kind → String
  | general => "SATBaseException"
  | input => "DimacsFormatError"
  | header => "MalformedHeaderError"
  | countMismatch => "ClauseCountMismatchError"
  | clause => "InvalidClauseError"
  | emptyHistory => "EmptyHistoryError"
  | config => "ConfigurationError"

/-- The kind of the given name. -/
def ofName? (name : String) : Option Kind := all.find? (·.name = name)

/-- The names of a kind and of all that it is a case of, the nearest first. -/
def lineage : Kind → List String
  | general => [general.name, "Exception", "BaseException", "object"]
  | input => [input.name, general.name, "ValueError", "Exception", "BaseException", "object"]
  | emptyHistory =>
    [emptyHistory.name, general.name, "RuntimeError", "Exception", "BaseException", "object"]
  | config => [config.name, general.name, "Exception", "BaseException", "object"]
  | k => [k.name, input.name, general.name, "ValueError", "Exception", "BaseException", "object"]

theorem head_lineage (k : Kind) : k.lineage.head? = some k.name := by
  cases k <;> rfl

end Kind

/-- Adds the line number of the input to a message, if there is one. -/
def withLine (message line : Value) : Value :=
  match line with
  | .null => message
  | line => .text (message.display ++ " (line " ++ line.display ++ ")")

/-- Adds the clause that is complained of to a message, if it is given. -/
def withClause (message clause : Value) : Value :=
  match clause with
  | .null => message
  | clause => .text (message.display ++ ": " ++ clause.display)

/-- Adds the key of a setting to a message, if it is given. -/
def withKey (message key : Value) : Value :=
  match key with
  | .null => message
  | key => .text (message.display ++ " for '" ++ key.display ++ "'")

theorem withLine_null (message : Value) : withLine message .null = message := rfl

theorem withKey_null (message : Value) : withKey message .null = message := rfl

end Complaint

/-- A complaint with its parts; a part that is not given is null. -/
inductive Complaint where
  | general (message : Value)
  | input (message line : Value)
  | header (message line : Value)
  | countMismatch (declared parsed : Value)
  | clause (message clause line : Value)
  /-- A clause whose members are not all literals; they are kept as they are shown. -/
  | members (shown : String)
  | emptyHistory (message : Value)
  | config (message key : Value)
deriving Repr

namespace Complaint

/-- What is said when a move cannot be taken back. -/
def emptyHistoryText : String := "Cannot undo: move history is empty"

/-- The kind of a complaint. -/
def kind : Complaint → Kind
  | general _ => .general
  | input _ _ => .input
  | header _ _ => .header
  | countMismatch _ _ => .countMismatch
  | clause _ _ _ => .clause
  | members _ => .clause
  | emptyHistory _ => .emptyHistory
  | config _ _ => .config

/-- The message of a complaint, null if it has none. -/
def message : Complaint → Value
  | general m => m
  | input m line => withLine m line
  | header m line => withLine m line
  | countMismatch declared parsed =>
    .text ("cnf claims " ++ declared.display ++ " clauses, but file contains " ++ parsed.display)
  | clause m c line => withLine (withClause m c) line
  | members shown => .text ("Clause members must be literals: " ++ shown)
  | emptyHistory m => m
  | config m key => withKey m key

/-- The parts that a complaint tells beside its message. -/
def details : Complaint → List (String × Value)
  | general _ => []
  | input _ line => [("line_number", line)]
  | header _ line => [("line_number", line)]
  | countMismatch declared parsed =>
    [("line_number", .null), ("declared", declared), ("parsed", parsed)]
  | clause _ c line => [("line_number", line), ("clause", c)]
  | members _ => [("line_number", .null)]
  | emptyHistory _ => []
  | config _ key => [("key", key)]

/-- The complaint by its kind and message. -/
def describe (c : Complaint) : String := c.kind.name ++ "(" ++ c.message.quote ++ ")"

end Complaint

end LocalSat
