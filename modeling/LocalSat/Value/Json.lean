import LocalSat.Value
import LocalSat.Decimal.Real
import LocalSat.Text.Quoted

/-!
# JSON text

`Value.json` writes a value on one line, with a blank after each comma and colon; `Value.jsonIndented`
writes it over several lines, two blanks deeper at each level. Every character outside the visible ASCII
range is escaped, beyond U+FFFF as a surrogate pair.
-/

namespace LocalSat.Value

open LocalSat.Decimal LocalSat.Text

/-- Real numbers in JSON text. -/
def jsonReal : RealStyle := ⟨"NaN", "Infinity", false⟩

/-- One character of a JSON string. -/
def jsonEscape (c : Char) : String :=
  let n := c.toNat
  if c == '"' then "\\\""
  else if c == '\\' then "\\\\"
  else if c == '\n' then "\\n"
  else if c == '\r' then "\\r"
  else if c == '\t' then "\\t"
  else if c == '\x08' then "\\b"
  else if c == '\x0c' then "\\f"
  else if 0x20 ≤ n && n < 0x7f then String.ofList [c]
  else if n < 0x10000 then "\\u" ++ hex 4 n
  else
    let m := n - 0x10000
    "\\u" ++ hex 4 (0xd800 + m / 0x400) ++ "\\u" ++ hex 4 (0xdc00 + m % 0x400)

/-- A JSON string. -/
def jsonText (s : String) : String :=
  "\"" ++ String.join (s.toList.map jsonEscape) ++ "\""

mutual

/-- A value as JSON text on one line. -/
def json : Value → String
  | null => "null"
  | bool b => if b then "true" else "false"
  | int n => toString n
  | real x => shortText jsonReal x
  | text s => jsonText s
  | list items => "[" ++ String.intercalate ", " (jsonItems items) ++ "]"
  | mapping entries => "\x7b" ++ String.intercalate ", " (jsonEntries entries) ++ "\x7d"

/-- The items of a list as JSON texts. -/
def jsonItems : List Value → List String
  | [] => []
  | v :: vs => json v :: jsonItems vs

/-- The entries of a mapping as JSON texts. -/
def jsonEntries : List (String × Value) → List String
  | [] => []
  | (k, v) :: rest => (jsonText k ++ ": " ++ json v) :: jsonEntries rest

end

/-- The start of a line `depth` levels deep. -/
def newLine (depth : Nat) : String :=
  "\n" ++ String.ofList (List.replicate (2 * depth) ' ')

/-- Brackets around parts that stand on lines of their own. -/
def indentedBlock (depth : Nat) (opening closing : String) (parts : List String) : String :=
  if parts.isEmpty then opening ++ closing
  else
    opening ++ newLine (depth + 1) ++ String.intercalate ("," ++ newLine (depth + 1)) parts
      ++ newLine depth ++ closing

mutual

/-- A value as JSON text over several lines, the value itself standing at the given depth. -/
def jsonAt (depth : Nat) : Value → String
  | list items => indentedBlock depth "[" "]" (jsonItemsAt (depth + 1) items)
  | mapping entries => indentedBlock depth "\x7b" "\x7d" (jsonEntriesAt (depth + 1) entries)
  | v => json v

/-- The items of a list at a depth. -/
def jsonItemsAt (depth : Nat) : List Value → List String
  | [] => []
  | v :: vs => jsonAt depth v :: jsonItemsAt depth vs

/-- The entries of a mapping at a depth. -/
def jsonEntriesAt (depth : Nat) : List (String × Value) → List String
  | [] => []
  | (k, v) :: rest => (jsonText k ++ ": " ++ jsonAt depth v) :: jsonEntriesAt depth rest

end

/-- A value as JSON text over several lines, without a final line end. -/
def jsonIndented (v : Value) : String := jsonAt 0 v

end LocalSat.Value
