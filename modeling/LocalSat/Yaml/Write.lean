import LocalSat.Decimal.Real
import LocalSat.Text.Quoted
import LocalSat.Yaml.Scalar

/-!
# Writing YAML

Mappings and lists are written in block style, two blanks deeper at each level; a list below a key stands
at the key's own depth, and empty ones are written in brackets. A text is written plain where that reads
back as the same text, else in single quotes, and in double quotes if it holds special characters. Lines
are broken at blanks beyond the eightieth column.
-/

namespace LocalSat.Yaml

open LocalSat.Decimal LocalSat.Text

/-- Real numbers in YAML. -/
def yamlReal : RealStyle := ⟨".nan", ".inf", true⟩

/-- Characters that end a line. -/
def isBreak (c : Char) : Bool :=
  c == '\n' || c.toNat == 0x85 || c.toNat == 0x2028 || c.toNat == 0x2029

/-- Characters that separate a mark from what follows. -/
def isGap (c : Char) : Bool :=
  c == '\x00' || c == ' ' || c == '\t' || c == '\r' || isBreak c

/-- Characters that need an escape. -/
def isSpecial (c : Char) : Bool :=
  let n := c.toNat
  !(c == '\n' || (0x20 ≤ n && n ≤ 0x7e) || n == 0x85 || (0xa0 ≤ n && n ≤ 0xfffd) ||
    (0x10000 ≤ n && n < 0x10ffff)) || n == 0xfeff

/-- Whether a mark that could be taken for structure stands among the characters; `before` is the
character in front. -/
def hasMark (before : Char) : List Char → Bool
  | [] => false
  | c :: cs =>
    let ends := match cs with | [] => true | d :: _ => isGap d
    (c == ':' && ends) || (c == '#' && isGap before) || hasMark c cs

/-- Whether a plain text would start with structure. -/
def startsWithMark : List Char → Bool
  | [] => false
  | c :: cs =>
    let ends := match cs with | [] => true | d :: _ => isGap d
    "#,[]\x7b\x7d&*!|>'\"%@\x60".toList.contains c || ((c == '?' || c == ':' || c == '-') && ends)
      || (c == '-' && cs.take 2 == ['-', '-']) || (c == '.' && cs.take 2 == ['.', '.'])

/-- Whether a blank follows a line end. -/
def hasBlankAfterBreak : List Char → Bool
  | c :: d :: cs => (isBreak c && d == ' ') || hasBlankAfterBreak (d :: cs)
  | _ => false

/-- Whether a line end follows a blank. -/
def hasBreakAfterBlank : List Char → Bool
  | c :: d :: cs => (c == ' ' && isBreak d) || hasBreakAfterBlank (d :: cs)
  | _ => false

/-- How a text is written. -/
inductive Quotes where
  | plain
  | single
  | double
deriving DecidableEq, Repr

/-- The plainest way to write a text that reads back; `key` tells that it is to fit on one line. -/
def quotesFor (key : Bool) (s : String) : Quotes :=
  let cs := s.toList
  let breaks := cs.any isBreak
  let edge (c : Option Char) : Bool := c.any fun c => c == ' ' || isBreak c
  let hard := hasBreakAfterBlank cs || cs.any isSpecial
  if !hard && !breaks && !needsQuotes s && !edge cs.head? && !edge cs.getLast?
      && !startsWithMark cs && !hasMark 'x' (cs.drop 1)
  then .plain
  else if !hard && !hasBlankAfterBreak cs && !(key && breaks) then .single
  else .double

/-- Breaks a line at single blanks once it has passed the eightieth column. `column` is where the next
word starts, `start` tells that it is the first one. -/
def foldWords (indent column : Nat) (start : Bool) : List (List Char) → String
  | [] => ""
  | [w] => if start then String.ofList w else String.ofList (' ' :: w)
  | w :: v :: ws =>
    let body := if start then w else ' ' :: w
    let column := column + body.length
    if 80 < column && !v.isEmpty && !w.isEmpty then
      String.ofList body ++ "\n" ++ String.ofList (List.replicate indent ' ')
        ++ foldWords indent indent true (v :: ws)
    else String.ofList body ++ foldWords indent column false (v :: ws)

/-- A text over several lines, each end doubled. -/
def singleBody (indent column : Nat) (cs : List Char) : String :=
  match pieces isBreak cs with
  | [_] => foldWords indent column true (pieces (· == ' ') cs)
  | ls => String.intercalate ("\n\n" ++ String.ofList (List.replicate indent ' '))
      (ls.map String.ofList)

/-- The escape of a character in double quotes. -/
def escapeDouble (c : Char) : String :=
  let n := c.toNat
  let short : List (Nat × Char) :=
    [(0, '0'), (7, 'a'), (8, 'b'), (9, 't'), (10, 'n'), (11, 'v'), (12, 'f'), (13, 'r'), (27, 'e'),
     (0x22, '"'), (0x5c, '\\'), (0x85, 'N'), (0xa0, '_'), (0x2028, 'L'), (0x2029, 'P')]
  match short.lookup n with
  | some d =>
    if n == 0xa0 then String.ofList [c] else String.ofList ['\\', d]
  | none =>
    if (0x20 ≤ n && n ≤ 0x7e) || (0xa0 ≤ n && n ≤ 0xfffd && n != 0xfeff) then String.ofList [c]
    else if n ≤ 0xff then "\\x" ++ (hex 2 n).toUpper
    else if n ≤ 0xffff then "\\u" ++ (hex 4 n).toUpper
    else "\\U" ++ (hex 8 n).toUpper

/-- A text as a scalar that starts at a column; further lines are indented. -/
def textScalar (key : Bool) (indent column : Nat) (s : String) : String :=
  let words (cs : List Char) (start : Nat) : String :=
    if key then String.ofList cs else foldWords indent start true (pieces (· == ' ') cs)
  match quotesFor key s with
  | .plain => words s.toList column
  | .single =>
    let cs := s.toList.flatMap fun c => if c == '\'' then ['\'', '\''] else [c]
    "'" ++ (if cs.any isBreak then singleBody indent (column + 1) cs else words cs (column + 1)) ++ "'"
  | .double => "\"" ++ String.join (s.toList.map escapeDouble) ++ "\""

/-- A scalar that starts at a column. -/
def scalar (indent column : Nat) : Value → String
  | .null => "null"
  | .bool b => if b then "true" else "false"
  | .int n => toString n
  | .real x => shortText yamlReal x
  | .text s => textScalar false indent column s
  | .list _ => "[]"
  | .mapping _ => "\x7b\x7d"

/-- Blanks at the start of a line. -/
def blanks (n : Nat) : String := String.ofList (List.replicate n ' ')

mutual

/-- The value of a mapping entry whose key ends at a column, with what joins it to the key. -/
def entryValue (depth column : Nat) : Value → String
  | .list (v :: vs) => "\n" ++ listLines depth (v :: vs)
  | .mapping (e :: es) => "\n" ++ mappingLines (depth + 2) true (e :: es)
  | v => " " ++ scalar (depth + 2) (column + 1) v ++ "\n"

/-- The entries of a mapping, a line each; the first one is indented only if `first` says so. -/
def mappingLines (depth : Nat) (first : Bool) : List (String × Value) → String
  | [] => ""
  | (k, v) :: es =>
    let key := textScalar true depth depth k ++ ":"
    (if first then blanks depth else "") ++ key ++ entryValue depth (depth + key.length) v
      ++ mappingLines depth true es

/-- The items of a list, each behind a dash. -/
def listLines (depth : Nat) : List Value → String
  | [] => ""
  | v :: vs => blanks depth ++ itemLines depth v ++ listLines depth vs

/-- An item with its dash; a list or mapping starts on the same line. -/
def itemLines (depth : Nat) : Value → String
  | .list (v :: vs) => "- " ++ nestedLines (depth + 2) (v :: vs)
  | .mapping (e :: es) => "- " ++ mappingLines (depth + 2) false (e :: es)
  | v => "- " ++ scalar (depth + 2) (depth + 2) v ++ "\n"

/-- The items of a list whose first dash stands behind another one. -/
def nestedLines (depth : Nat) : List Value → String
  | [] => ""
  | v :: vs => itemLines depth v ++ listLines depth vs

end

/-- A value as a YAML document. -/
def write : Value → String
  | .mapping (e :: es) => mappingLines 0 true (e :: es)
  | .list (v :: vs) => listLines 0 (v :: vs)
  | v => scalar 0 0 v ++ "\n"

end LocalSat.Yaml
