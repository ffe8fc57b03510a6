import LocalSat.Complaint
import LocalSat.Dimacs.Error
import LocalSat.Log
import LocalSat.RandomKSat
import LocalSat.Search.State
import LocalSat.Value.Conversion

/-!
# Failures

`Failure` is the sum of all that can go wrong in the program. Each cause is shown under the name of its
kind and with a message; the causes that are about formulas, searches and settings are shown as
complaints, which tell more about themselves (`complaint?`). Main statement: a failure is shown as its
complaint says, if it has one (`kind_of_complaint`, `message_of_complaint`).
-/

namespace LocalSat

open LocalSat.Search

/-- Everything that can go wrong. -/
inductive Failure where
  | outOfRange (e : OutOfRange)
  /-- There is no move to take back. -/
  | emptyHistory
  | clause (e : ClauseError)
  | formula (e : FormulaError)
  | input (e : Dimacs.ReadError)
  | random (e : Random.Error)
  /-- A clause would need more variables than there are. -/
  | clauseSize (k n : Int)
  /-- A measure cannot be compared with a limit of another kind. -/
  | incomparable (measure limit : String)
  | config (e : ConfigError)
  /-- A list and a mapping were to be merged. -/
  | mergeConflict
  | unresolved (e : Config.Unresolved)
  | conversion (e : ConversionError)
  | file (e : FileError)
  | logging (e : Log.SetupError)
  /-- Events cannot be written in this format. -/
  | eventFormat (shown : String)
  /-- What was to be registered is no kind of solver. -/
  | notSolver (shown : String)
  /-- A kind of solver without a method cannot be used. -/
  | abstractSolver (title : String)
  /-- Solvers have no such option. -/
  | unknownOption (name : String)
  /-- This kind of solver has no such operation. -/
  | noOperation (title operation : String)
  /-- There is no such status of a result. -/
  | unknownStatus (shown : String)
  /-- The values of an assignment can only be changed by moves. -/
  | readOnly
  /-- Values of this kind have no JSON text. -/
  | notEncodable (kind : String)
  /-- An integer of too many digits was to be printed. -/
  | tooLong

namespace Failure

/-- The cause behind a fault of a search. -/
def ofFault : Fault → Failure
  | .outOfRange e => .outOfRange e
  | .emptyHistory => .emptyHistory
  | .random e => .random e
  | .incomparable measure limit => .incomparable measure limit
  | .tooLong => .tooLong

/-- The cause why there is no random instance. -/
def ofRandomKSat : RandomKSat.Error → Failure
  | .clauseSize k n => .clauseSize k n
  | .random e => .random e
  | .formula e => .formula e
  | .tooLong => .tooLong

/-! ## Complaints -/

/-- An integer or nothing, as part of a complaint. -/
def lineValue (line : Option Nat) : Value := Value.ofOption (fun n => .int n) line

/-- A clause as part of a complaint. -/
def clauseValue (ns : List Int) : Value := .list (ns.map .int)

/-- The complaint about members of a clause; there is none if it cannot be told. -/
def ofClauseError? : ClauseError → Option Complaint
  | .empty => some (.clause (.text "Clause must contain at least one literal") .null .null)
  | .zero => some (.clause (.text "0 is a clause terminator, not a literal") .null .null)
  | .notLiterals shown => some (.members shown)
  | .tooLong => none

/-- The complaint about the parts of a formula; a negative number of variables is none, and there is none
if it cannot be told. -/
def ofFormulaError? : FormulaError → Option Complaint
  | .negativeCount _ | .tooLong => none
  | .clause e => ofClauseError? e
  | .outOfRange l n ns =>
    some (.clause
      (.text ("Literal " ++ toString l.toSigned ++ " out of range for " ++ toString n
        ++ " variables"))
      (clauseValue ns) .null)

/-- What is said about a problem line. -/
def headerText : Dimacs.HeaderFault → String
  | .repeated => "Multiple problem lines in CNF file"
  | .misshapen line => "Invalid problem line: " ++ line
  | .unknownFormat format => "file format unknown: " ++ format
  | .notNumbers line => "Invalid numbers in problem line: " ++ line
  | .negative line => "Negative counts in problem line: " ++ line
  | .missing => "No problem line found in CNF file"

/-- The complaint about input. -/
def ofReadError? : Dimacs.ReadError → Option Complaint
  | .header fault line => some (.header (.text (headerText fault)) (lineValue line))
  | .badToken token line =>
    some (.clause (.text ("Invalid literal '" ++ token ++ "'")) .null (.int line))
  | .undeclared var declared ns line =>
    some (.clause
      (.text ("Variable " ++ toString var ++ " exceeds declared count " ++ toString declared))
      (clauseValue ns) (.int line))
  | .countMismatch declared parsed => some (.countMismatch (.int declared) (.int parsed))
  | .notText path fault =>
    some (.input (.text (path ++ " is not UTF-8 text: " ++ fault.message)) .null)
  | .formula e => ofFormulaError? e

/-- The complaint about a value that is none of the known ones. -/
def notAmong (what name key : String) (known : List String) : Complaint :=
  .config
    (.text ("Unknown " ++ what ++ " '" ++ name ++ "', expected one of "
      ++ String.intercalate ", " known))
    (.text key)

/-- The complaint about a setting. -/
def ofConfigError : ConfigError → Complaint
  | .fileNotFound path => .config (.text ("Configuration file not found: " ++ path)) .null
  | .unreadable path => .config (.text ("Error loading configuration file " ++ path)) .null
  | .unknownAlgorithm name known => notAmong "algorithm" name "solver.name" known
  | .unknownInitialization name =>
    notAmong "initialization" name "solver.initialization" Config.initializations
  | .unknownEventFormat name => notAmong "event format" name "events.format" Config.eventFormats
  | .unknownLevel name =>
    .config (.text ("Unknown logging level '" ++ name ++ "'")) (.text "logging.level")

/-- The complaint that a failure is shown as. -/
def complaint? : Failure → Option Complaint
  | emptyHistory => some (.emptyHistory (.text Complaint.emptyHistoryText))
  | clause e => ofClauseError? e
  | formula e => ofFormulaError? e
  | input e => ofReadError? e
  | config e => some (ofConfigError e)
  | logging (.config e) => some (ofConfigError e)
  | _ => none

/-! ## Kind and message -/

/-- The kind and the message of an index beyond a sequence. -/
def ofOutOfRange : OutOfRange → String × String
  | .list => ("IndexError", "list index out of range")
  | .clause => ("IndexError", "tuple index out of range")
  | .assignment index size =>
    ("IndexError", "index " ++ toString index ++ " is out of bounds for axis 0 with size "
      ++ toString size)

/-- The kind and the message of a draw that is not possible. -/
def ofRandomError : Random.Error → String × String
  | .negativeSeed => ("ValueError", "expected non-negative integer")
  | .seedKind shown =>
    ("TypeError", "SeedSequence expects int or sequence of ints for entropy not " ++ shown)
  | .emptyRange => ("ValueError", "high <= 0")
  | .emptyPool => ("ValueError", "a cannot be empty unless no samples are taken")
  | .negativeSize => ("ValueError", "negative dimensions are not allowed")

/-- The kind and the message of a value that is not the number that is wanted. -/
def ofConversionError : ConversionError → String × String
  | .integerKind kind =>
    ("TypeError",
      "int() argument must be a string, a bytes-like object or a real number, not '" ++ kind ++ "'")
  | .realKind kind =>
    ("TypeError", "float() argument must be a string or a real number, not '" ++ kind ++ "'")
  | .integerText shown => ("ValueError", "invalid literal for int() with base 10: " ++ shown)
  | .realText shown => ("ValueError", "could not convert string to float: " ++ shown)
  | .infinite => ("OverflowError", "cannot convert float infinity to integer")
  | .notANumber => ("ValueError", "cannot convert float NaN to integer")
  | .tooLarge => ("OverflowError", "int too large to convert to float")

/-- The message of a failed system call: its number, its name and the path. -/
def systemText (number : Nat) (name path : String) : String :=
  "[Errno " ++ toString number ++ "] " ++ name ++ ": " ++ Text.quoted path

/-- The kind and the message of a file that cannot be used. -/
def ofFileError : FileError → String × String
  | .notFound path => ("FileNotFoundError", systemText 2 "No such file or directory" path)
  | .alreadyExists path => ("FileExistsError", systemText 17 "File exists" path)
  | .notDirectory path => ("NotADirectoryError", systemText 20 "Not a directory" path)
  | .isDirectory path => ("IsADirectoryError", systemText 21 "Is a directory" path)
  | .noFormula path => ("FileNotFoundError", "CNF file not found: " ++ path)
  | .noTableDirectory path =>
    ("OSError", "Cannot save file into a non-existent directory: '" ++ path ++ "'")

/-- The kind and the message of an integer that is not printed, which is one of more than
`Text.maxDigits` digits. -/
def tooLongToPrint : String × String :=
  ("ValueError",
    "Exceeds the limit (" ++ toString Text.maxDigits
      ++ " digits) for integer string conversion; use sys.set_int_max_str_digits() to increase the limit")

/-- The kind and the message of a failure that is no complaint. -/
def plain : Failure → String × Option String
  | outOfRange e => (ofOutOfRange e).map id some
  | formula (.negativeCount n) | input (.formula (.negativeCount n)) =>
    ("ValueError", some ("Number of variables must be non-negative, got " ++ toString n))
  | random e => (ofRandomError e).map id some
  | clauseSize k n =>
    ("ValueError",
      some ("Clause size " ++ toString k ++ " exceeds number of variables " ++ toString n))
  | incomparable measure limit =>
    ("TypeError",
      some ("'>=' not supported between instances of '" ++ measure ++ "' and '" ++ limit ++ "'"))
  | mergeConflict => ("TypeError", some "Cannot merge incompatible container types")
  | unresolved .missing => ("InterpolationKeyError", none)
  | unresolved .malformed => ("GrammarParseError", none)
  | conversion e => (ofConversionError e).map id some
  | file e => (ofFileError e).map id some
  | logging (.levelKind shown) =>
    ("TypeError", some ("Level not an integer or a valid string: " ++ shown))
  | logging (.noField format) =>
    ("ValueError", some ("Invalid format '" ++ format ++ "' for '%' style"))
  | logging (.file e) => (ofFileError e).map id some
  | eventFormat shown => ("ValueError", some ("Unknown log format: " ++ shown))
  | notSolver shown => ("TypeError", some (shown ++ " is not a LocalSearchSolver subclass"))
  | abstractSolver title =>
    ("TypeError", some ("Can't instantiate abstract class " ++ title ++ " with abstract method step"))
  | unknownOption name =>
    ("TypeError",
      some ("LocalSearchSolver.__init__() got an unexpected keyword argument '" ++ name ++ "'"))
  | noOperation title operation =>
    ("AttributeError", some ("'" ++ title ++ "' object has no attribute '" ++ operation ++ "'"))
  | unknownStatus shown => ("ValueError", some (shown ++ " is not a valid SolverStatus"))
  | readOnly => ("ValueError", some "assignment destination is read-only")
  | notEncodable kind =>
    ("TypeError", some ("Object of type " ++ kind ++ " is not JSON serializable"))
  | tooLong | clause .tooLong | formula .tooLong | formula (.clause .tooLong) | input (.formula .tooLong)
  | input (.formula (.clause .tooLong)) => tooLongToPrint.map id some
  | _ => ("Exception", some "")

/-- The name of the kind of a failure. -/
def kind (f : Failure) : String :=
  match f.complaint? with
  | some c => c.kind.name
  | none => f.plain.1

/-- The message of a failure, if it is shown. -/
def message? (f : Failure) : Option String :=
  match f.complaint? with
  | some c => some c.message.display
  | none => f.plain.2

/-- The message of a failure where one is needed. -/
def text (f : Failure) : String := f.message?.getD ""

/-- What a failure tells beside its message. -/
def details (f : Failure) : List (String × Value) :=
  match f.complaint? with
  | some c => c.details
  | none => []

/-- Whether a run of the program ends in good order on this failure: complaints and files that cannot
be used. -/
def isExpected (f : Failure) : Bool :=
  match f with
  | file _ => true
  | logging (.file _) => true
  | f => f.complaint?.isSome

/-! ## Laws -/

theorem kind_of_complaint {f : Failure} {c : Complaint} (h : f.complaint? = some c) :
    f.kind = c.kind.name := by
  simp [kind, h]

theorem message_of_complaint {f : Failure} {c : Complaint} (h : f.complaint? = some c) :
    f.message? = some c.message.display := by
  simp [message?, h]

end Failure

end LocalSat
