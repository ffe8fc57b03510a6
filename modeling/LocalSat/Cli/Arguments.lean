import LocalSat.Cli.Help
import LocalSat.Config
import LocalSat.Decimal.Numeral
import LocalSat.Registry
import LocalSat.Text.Digit
import LocalSat.Text.Quoted

/-!
# Command line arguments

Arguments are read in two passes. `classify` tells options from words: an option may be shortened as long
as it stays unambiguous, and may carry its value behind an equals sign; everything after a double dash is
a word. `walk` then goes through the tokens once. The program's own grammar hands what follows the name of
a command to the grammar of that command. What fits nowhere is gathered and refused in the end. Main
statement: arguments are accepted only if nothing of them is left over (`refuse_eq_ok_iff`).

| here | there |
| --- | --- |
| `programGrammar`, `solveGrammar`, `benchmarkGrammar` | `build_parser` |
| `parse` | `parse_args` |
-/

namespace LocalSat.Cli

open LocalSat.Decimal LocalSat.Text

/-! ## Grammars -/

/-- What an option's value is read as. -/
inductive Form where
  | text
  | integer
  | real
  | choice (among : List String)
deriving DecidableEq, Repr

/-- What an option's value is for. -/
inductive Target where
  /-- A setting of the configuration. -/
  | setting (key : String)
  | configFile
  /-- The file that receives the table of runs. -/
  | table
deriving DecidableEq, Repr

/-- An option with a value. -/
structure Flag where
  name : String
  form : Form
  target : Target
deriving DecidableEq, Repr

/-- What stands on a command line beside options. -/
inductive Positional where
  | nothing
  /-- One word. -/
  | one (name : String)
  /-- The name of a command; the rest belongs to it. -/
  | command (among : List String)
deriving DecidableEq, Repr

/-- The grammar of the program or of a command. -/
structure Grammar where
  program : String
  flags : List Flag
  positional : Positional
  help : String

/-- The names of the commands. -/
def commandNames : List String := ["solve", "benchmark"]

/-- The grammar of the program. -/
def programGrammar : Grammar where
  program := "greedysat"
  flags := [⟨"--config", .text, .configFile⟩, ⟨"--log-level", .text, .setting "logging.level"⟩]
  positional := .command commandNames
  help := programHelp

/-- The grammar of the command that solves a file. -/
def solveGrammar : Grammar where
  program := "greedysat solve"
  flags :=
    [⟨"--algorithm", .choice Registry.standard.names, .setting "solver.name"⟩,
     ⟨"--seed", .integer, .setting "solver.seed"⟩,
     ⟨"--max-iterations", .integer, .setting "solver.max_iterations"⟩,
     ⟨"--timeout", .real, .setting "solver.timeout"⟩,
     ⟨"--initialization", .choice Config.initializations, .setting "solver.initialization"⟩,
     ⟨"--events-dir", .text, .setting "events.dir"⟩,
     ⟨"--events-format", .choice Config.eventFormats, .setting "events.format"⟩]
  positional := .one "file"
  help := solveHelp

/-- The grammar of the command that compares algorithms. -/
def benchmarkGrammar : Grammar where
  program := "greedysat benchmark"
  flags :=
    [⟨"--variables", .integer, .setting "benchmark.num_variables"⟩,
     ⟨"--ratio", .real, .setting "benchmark.clause_ratio"⟩,
     ⟨"--clause-size", .integer, .setting "benchmark.clause_size"⟩,
     ⟨"--instances", .integer, .setting "benchmark.instances"⟩,
     ⟨"--seeds", .integer, .setting "benchmark.seeds"⟩,
     ⟨"--max-iterations", .integer, .setting "benchmark.max_iterations"⟩,
     ⟨"--output", .text, .table⟩]
  positional := .nothing
  help := benchmarkHelp

/-! ## Tokens -/

/-- Why reading arguments ends early. -/
inductive Stop where
  | help (text : String)
  | error (program message : String)
deriving DecidableEq, Repr

/-- The line that is printed for a fault. -/
def errorLine (program message : String) : String := program ++ ": error: " ++ message

/-- An argument as its grammar sees it. -/
inductive Token where
  | word (s : String)
  /-- The double dash after which there are only words. -/
  | dashes
  /-- The option that asks for help, with a value that it does not take. -/
  | help (extra : Option String)
  | flag (f : Flag) (value : Option String)
  /-- An option that the grammar does not know. -/
  | unknown (s : String)
deriving DecidableEq, Repr

/-- The spellings of the options of a grammar, with the token that each stands for. -/
def spellings (g : Grammar) : List (String × (Option String → Token)) :=
  ("-h", .help) :: ("--help", .help) :: g.flags.map fun f => (f.name, .flag f)

/-- Splits an argument at its first equals sign. -/
def splitValue (s : String) : String × Option String :=
  let cs := s.toList
  let name := cs.takeWhile (· != '=')
  match cs.drop name.length with
  | _ :: value => (String.ofList name, some (String.ofList value))
  | [] => (s, none)

/-- Whether an argument looks like a negative number. -/
def isNegativeNumber (s : String) : Bool :=
  let digits (cs : List Char) : Bool := cs.all fun c => (digitValue? c).isSome
  match s.toList with
  | '-' :: cs =>
    let cs := if cs.getLast? == some '\n' then cs.dropLast else cs
    match pieces (· == '.') cs with
    | [whole] => !whole.isEmpty && digits whole
    | [whole, places] => digits whole && !places.isEmpty && digits places
    | _ => false
  | _ => false

/-- The options that an argument may abbreviate; letters glued to a short spelling do not count. -/
def abbreviated (g : Grammar) (s : String) : List (String × Token) :=
  if s.startsWith "--" then
    let (name, value) := splitValue s
    (spellings g).filterMap fun (spelling, token) =>
      if spelling.startsWith name then some (spelling, token value) else none
  else
    (spellings g).filterMap fun (spelling, token) =>
      if spelling == String.ofList (s.toList.take 2) || spelling.startsWith s then
        some (spelling, token none)
      else none

/-- The token of an argument before any double dash. -/
def classifyOne (g : Grammar) (s : String) : Except Stop Token :=
  if !s.startsWith "-" then .ok (.word s)
  else match (spellings g).lookup s with
    | some token => .ok (token none)
    | none =>
      if s.length = 1 then .ok (.word s)
      else
        let (name, value) := splitValue s
        match (if value.isSome then (spellings g).lookup name else none) with
        | some token => .ok (token value)
        | none =>
          match abbreviated g s with
          | [(_, token)] => .ok token
          | [] =>
            if isNegativeNumber s || s.contains ' ' then .ok (.word s) else .ok (.unknown s)
          | several =>
            .error (.error g.program ("ambiguous option: " ++ s ++ " could match "
              ++ String.intercalate ", " (several.map (·.1))))

/-- The tokens of arguments. -/
def classify (g : Grammar) : List String → Except Stop (List Token)
  | [] => .ok []
  | s :: ss =>
    if s == "--" then .ok (.dashes :: ss.map .word)
    else match classifyOne g s with
      | .error e => .error e
      | .ok t => (classify g ss).map (t :: ·)

/-! ## Values -/

/-- The choices of an option in a message. -/
def choices (among : List String) : String := String.intercalate ", " (among.map quoted)

/-- What is said of a value that is none of the choices. -/
def invalidChoice (s : String) (among : List String) : String :=
  "invalid choice: " ++ quoted s ++ " (choose from " ++ choices among ++ ")"

/-- The value of an option, or what is wrong with it. -/
def Form.read (form : Form) (s : String) : Except String Value :=
  match form with
  | .text => .ok (.text s)
  | .integer =>
    match readInteger? s with
    | some n => .ok (.int n)
    | none => .error ("invalid int value: " ++ quoted s)
  | .real =>
    match readReal? s with
    | some x => .ok (.real x)
    | none => .error ("invalid float value: " ++ quoted s)
  | .choice among => if among.contains s then .ok (.text s) else .error (invalidChoice s among)

/-! ## Reading -/

/-- What has been read: the targets of options with their values, the word or command, what follows a
command, and what fits nowhere. -/
structure Parsed where
  given : List (Target × Value)
  word : Option String
  rest : List String
  strays : List String
deriving Repr

/-- Nothing read. -/
def Parsed.empty : Parsed := ⟨[], none, [], []⟩

/-- A fault of an argument. -/
def argumentError (g : Grammar) (name message : String) : Stop :=
  .error g.program ("argument " ++ name ++ ": " ++ message)

/-- Adds the value of an option. -/
def Parsed.take (p : Parsed) (g : Grammar) (f : Flag) (s : String) : Except Stop Parsed :=
  match f.form.read s with
  | .error message => .error (argumentError g f.name message)
  | .ok v => .ok { p with given := p.given ++ [(f.target, v)] }

/-- What happens when help is asked for; a value is refused. -/
def askHelp (g : Grammar) : Option String → Stop
  | none => .help g.help
  | some s => argumentError g "-h/--help" ("ignored explicit argument " ++ quoted s)

/-- Goes through the tokens. -/
def walk (g : Grammar) (p : Parsed) : List Token → Except Stop Parsed
  | [] => .ok p
  | .help extra :: _ => .error (askHelp g extra)
  | .flag f (some s) :: ts =>
    match p.take g f s with
    | .error e => .error e
    | .ok p => walk g p ts
  | .flag f none :: .word s :: ts =>
    match p.take g f s with
    | .error e => .error e
    | .ok p => walk g p ts
  | .flag f none :: _ => .error (argumentError g f.name "expected one argument")
  | .unknown s :: ts => walk g { p with strays := p.strays ++ [s] } ts
  | .word s :: ts =>
    match g.positional, p.word with
    | .one _, none =>
      match ts with
      | .dashes :: ts => walk g { p with word := some s } ts
      | ts => walk g { p with word := some s } ts
    | _, _ => walk g { p with strays := p.strays ++ [s] } ts
  | .dashes :: .word s :: ts =>
    match g.positional, p.word with
    | .one _, none => walk g { p with word := some s } ts
    | _, _ => walk g { p with strays := p.strays ++ ["--", s] } ts
  | .dashes :: ts => walk g { p with strays := p.strays ++ ["--"] } ts

/-- Takes the name of a command off the arguments at the first word among the tokens. -/
def findCommand (g : Grammar) (among : List String) (p : Parsed) :
    List Token → List String → Except Stop Parsed
  | .word s :: _, _ :: ss => commandNamed s ss
  | .dashes :: .word _ :: _, _ :: ss => commandNamed "--" ss
  | .flag f none :: .word s :: ts, _ :: _ :: ss =>
    match p.take g f s with
    | .error e => .error e
    | .ok p => findCommand g among p ts ss
  | .flag f (some s) :: ts, _ :: ss =>
    match p.take g f s with
    | .error e => .error e
    | .ok p => findCommand g among p ts ss
  | .flag f none :: _, _ => .error (argumentError g f.name "expected one argument")
  | .help extra :: _, _ => .error (askHelp g extra)
  | .unknown s :: ts, _ :: ss => findCommand g among { p with strays := p.strays ++ [s] } ts ss
  | .dashes :: ts, _ :: ss => findCommand g among { p with strays := p.strays ++ ["--"] } ts ss
  | _, _ => .ok p
where
  commandNamed (s : String) (ss : List String) : Except Stop Parsed :=
    if among.contains s then .ok { p with word := some s, rest := ss }
    else .error (argumentError g "command" (invalidChoice s among))

/-- Reads the arguments of a grammar. -/
def Grammar.parse (g : Grammar) (args : List String) : Except Stop Parsed :=
  match classify g args with
  | .error e => .error e
  | .ok ts =>
    match g.positional with
    | .command among => findCommand g among .empty ts args
    | .nothing => walk g .empty ts
    | .one name =>
      match walk g .empty ts with
      | .error e => .error e
      | .ok p =>
        if p.word.isNone then
          .error (.error g.program ("the following arguments are required: " ++ name))
        else .ok p

/-! ## Commands -/

/-- What the program is asked to do. -/
inductive Command where
  /-- Nothing: no command is given. -/
  | none
  | solve (file : String)
  | benchmark
deriving DecidableEq, Repr

/-- The arguments of the program. -/
structure Arguments where
  command : Command
  given : List (Target × Value)
deriving Repr

/-- The settings that are given, in order. -/
def Arguments.settings (a : Arguments) : List (String × Value) :=
  a.given.filterMap fun
    | (.setting key, v) => some (key, v)
    | _ => none

/-- The last value given for a target, as text; nothing counts as the empty text. -/
def Arguments.textFor (a : Arguments) (target : Target) : String :=
  match (a.given.filter (·.1 = target)).getLast? with
  | some (_, .text s) => s
  | _ => ""

/-- Refuses what fits nowhere. -/
def refuse (strays : List String) (a : Arguments) : Except Stop Arguments :=
  if strays.isEmpty then .ok a
  else .error (.error programGrammar.program
    ("unrecognized arguments: " ++ String.intercalate " " strays))

theorem refuse_eq_ok_iff {strays : List String} {a b : Arguments} :
    refuse strays a = .ok b ↔ strays = [] ∧ a = b := by
  cases strays <;> simp [refuse]

/-- Reads the arguments of the program. -/
def parse (args : List String) : Except Stop Arguments :=
  match programGrammar.parse args with
  | .error e => .error e
  | .ok p =>
    match p.word with
    | none => refuse p.strays ⟨.none, p.given⟩
    | some "solve" =>
      match solveGrammar.parse p.rest with
      | .error e => .error e
      | .ok q => refuse (p.strays ++ q.strays) ⟨.solve (q.word.getD ""), p.given ++ q.given⟩
    | some _ =>
      match benchmarkGrammar.parse p.rest with
      | .error e => .error e
      | .ok q => refuse (p.strays ++ q.strays) ⟨.benchmark, p.given ++ q.given⟩

end LocalSat.Cli
