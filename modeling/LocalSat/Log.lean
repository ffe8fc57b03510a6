import LocalSat.Config
import LocalSat.Files

/-!
# Log records

Records of the program's loggers go to the console and, if set up so, to a file. Before any set-up only
warnings and graver records are shown, as bare messages. A format is a text with fields such as
`%(name)s`, a field's text being padded to a width, on the right if a minus sign says so.

| here | there |
| --- | --- |
| `setUp` | `setup_logging` |
-/

namespace LocalSat

/-- A message of a logger at a level. -/
structure LogRecord where
  logger : String
  level : Int
  text : String
deriving DecidableEq, Repr

namespace Log

/-- The name above all loggers of the program. -/
def rootLogger : String := "greedysat"

/-- Level names and their numbers; the first name of a number is the one that is printed. -/
def levels : List (String × Int) :=
  [("CRITICAL", 50), ("FATAL", 50), ("ERROR", 40), ("WARNING", 30), ("WARN", 30), ("INFO", 20),
   ("DEBUG", 10), ("NOTSET", 0)]

/-- The level of a warning, from which records are shown without any set-up. -/
def warning : Int := 30

/-- The printed name of a level. -/
def levelName (level : Int) : String :=
  match levels.find? (·.2 = level) with
  | some (name, _) => name
  | none => "Level " ++ toString level

/-- A character in upper case, as far as level names go; the dotless i and the long s are the only
letters outside ASCII that become one of theirs. -/
def upper (c : Char) : Char :=
  if c.toNat = 0x131 then 'I' else if c.toNat = 0x17f then 'S' else c.toUpper

/-- The number of a level name, in any case. -/
def levelOf? (name : String) : Option Int :=
  levels.lookup (String.ofList (name.toList.map upper))

/-- The format of records unless another is given. -/
def defaultFormat : String := "%(asctime)s - %(name)s - %(levelname)s - %(message)s"

/-- What stands for the time of a record. -/
def timeMark : String := "<time>"

/-- A field of a format: its name, whether it is padded on the right, its width, its greatest length, and
its kind. -/
structure Field where
  name : String
  left : Bool
  width : Nat
  precision : Option Nat
  kind : Char

/-- Reads a field behind its per cent sign, and how many characters it takes. -/
def field? (cs : List Char) : Option (Field × Nat) :=
  match cs with
  | '(' :: cs =>
    let name := cs.takeWhile (· != ')')
    match cs.drop name.length with
    | ')' :: cs =>
      let flags := cs.takeWhile fun c => "#0+ -".toList.contains c
      let cs := cs.drop flags.length
      let width := cs.takeWhile Char.isDigit
      let cs := cs.drop width.length
      let (precision, cs, dotted) := match cs with
        | '.' :: rest => (some (rest.takeWhile Char.isDigit), rest.dropWhile Char.isDigit, 1)
        | cs => (none, cs, 0)
      match cs with
      | kind :: _ =>
        let number (ds : List Char) : Nat := ds.foldl (fun n d => 10 * n + (d.toNat - 48)) 0
        let taken := name.length + flags.length + width.length + (precision.getD []).length + dotted + 3
        if name.isEmpty then none
        else some (⟨String.ofList name, flags.contains '-', number width, precision.map number, kind⟩, taken)
      | [] => none
    | _ => none
  | _ => none

/-- The value of a field in a record. -/
def fieldText (r : LogRecord) (name : String) : String :=
  match name with
  | "asctime" => timeMark
  | "name" => r.logger
  | "levelname" => levelName r.level
  | "levelno" => toString r.level
  | "message" => r.text
  | "msg" => r.text
  | _ => ""

/-- A text brought to the length that a field asks for. -/
def Field.fit (f : Field) (s : String) : String :=
  let cs := match f.precision with | some n => s.toList.take n | none => s.toList
  let pad := List.replicate (f.width - cs.length) ' '
  String.ofList (if f.left then cs ++ pad else pad ++ cs)

/-- Fills in the fields of a format; `skip` characters belong to a field already read. -/
def fill (r : LogRecord) : Nat → List Char → String
  | _, [] => ""
  | skip + 1, _ :: cs => fill r skip cs
  | 0, c :: cs =>
    if c == '%' then
      match cs with
      | '%' :: _ => "%" ++ fill r 1 cs
      | _ => match field? cs with
        | some (f, n) => f.fit (fieldText r f.name) ++ fill r n cs
        | none => "%" ++ fill r 0 cs
    else String.ofList [c] ++ fill r 0 cs

/-- A record in a format. -/
def render (format : String) (r : LogRecord) : String := fill r 0 format.toList

/-- Whether a format has a field at all. -/
def hasField (format : String) : Bool :=
  let cs := format.toList
  (List.range cs.length).any fun i =>
    cs[i]? == some '%' &&
      (match field? (cs.drop (i + 1)) with
        | some (f, _) =>
          "diouxefgcrsa%".toList.contains f.kind.toLower
            && f.name.toList.all (fun c => c.isAlphanum || c == '_' || 0x80 ≤ c.toNat)
        | none => false)

/-- Where the records of the program go once it is set up. -/
structure Handlers where
  /-- The console's format; without a console only bare warnings are shown. -/
  console : Option String
  /-- The file that receives the same records. -/
  file : Option (String × String)

/-- The level of the program's loggers, where their records go, and the console's text so far. -/
structure Sink where
  level : Int
  handlers : Handlers
  console : String

/-- Before any set-up. -/
def Sink.initial : Sink := ⟨0, ⟨none, none⟩, ""⟩

/-- Why logging cannot be set up. -/
inductive SetupError where
  | config (e : ConfigError)
  /-- The level is neither a name nor a number; it is kept as a message shows it. -/
  | levelKind (shown : String)
  /-- The format has no field. -/
  | noField (format : String)
  | file (e : FileError)
deriving DecidableEq, Repr

/-- The number of a level that is given by name or number. -/
def levelNumber (level : Value) : Except SetupError Int :=
  match level with
  | .text name =>
    match levelOf? name with
    | some n => .ok n
    | none => .error (.config (.unknownLevel name))
  | v => match v.integer? with
    | some n => .ok n
    | none => .error (.levelKind v.quote)

/-- Sets logging up. Later steps may fail after the earlier ones have had their effect: the level, then
the console, then the file. -/
def setUp (sink : Sink) (tree : FileTree) (level : Value) (format : Value) (file : Value) :
    Sink × FileTree × Except SetupError Unit :=
  match levelNumber level with
  | .error e => (sink, tree, .error e)
  | .ok n =>
    let sink := { sink with level := n, handlers := ⟨none, none⟩ }
    let format := if format.isTrue then format.display else defaultFormat
    if !hasField format then (sink, tree, .error (.noField format))
    else
      let sink := { sink with handlers := ⟨some format, none⟩ }
      if !file.isTrue then (sink, tree, .ok ())
      else
        let path := FileTree.normal file.display
        let directory := FileTree.parent path
        let made := if directory.isEmpty then .ok tree else tree.makeDirectories directory
        match made with
        | .error e => (sink, tree, .error (.file e))
        | .ok tree =>
          match tree.openFile false path with
          | .error e => (sink, tree, .error (.file e))
          | .ok tree =>
            ({ sink with handlers := ⟨some format, some (path, format)⟩ }, tree, .ok ())

/-- The levels of the handlers that are set up. -/
def Sink.handlerLevels (sink : Sink) : List Int :=
  match sink.handlers.console, sink.handlers.file with
  | none, _ => []
  | some _, none => [sink.level]
  | some _, some _ => [sink.level, sink.level]

/-- Whether a logger belongs to the program. -/
def isOurs (logger : String) : Bool :=
  logger == rootLogger || (rootLogger ++ ".").toList.isPrefixOf logger.toList

/-- Whether records of a logger at a level are wanted. -/
def Sink.enabled (sink : Sink) (logger : String) (level : Int) : Bool :=
  let least := if isOurs logger && sink.level != 0 then sink.level else warning
  decide (0 < level) && decide (least ≤ level)

/-- Shows and files a record, if its level is wanted. -/
def emit (sink : Sink) (tree : FileTree) (r : LogRecord) : Sink × FileTree :=
  if !sink.enabled r.logger r.level then (sink, tree)
  else match (if isOurs r.logger then sink.handlers.console else none) with
    | none =>
      (if warning ≤ r.level then { sink with console := sink.console ++ r.text ++ "\n" } else sink, tree)
    | some format =>
      let sink := { sink with console := sink.console ++ render format r ++ "\n" }
      match sink.handlers.file with
      | none => (sink, tree)
      | some (path, format) => (sink, tree.append path (render format r ++ "\n"))

/-- Shows and files records in order. -/
def emitAll (sink : Sink) (tree : FileTree) (rs : List LogRecord) : Sink × FileTree :=
  rs.foldl (fun (s, t) r => emit s t r) (sink, tree)

end Log

end LocalSat
