import LocalSat.Value.Display
import LocalSat.Value.Json

/-!
# Rows of comma-separated values

A field is put in quotes if it holds a comma, a quote or a line end, and quotes inside are doubled. Null
is an empty field, and lists and mappings are written as JSON text.
-/

namespace LocalSat.Events

/-- Whether a field has to stand in quotes. -/
def needsQuotes (s : String) : Bool :=
  s.toList.any fun c => c == ',' || c == '"' || c == '\r' || c == '\n'

/-- A field as it is written. -/
def csvField (s : String) : String :=
  if needsQuotes s then
    "\"" ++ String.ofList (s.toList.flatMap fun c => if c == '"' then ['"', '"'] else [c]) ++ "\""
  else s

/-- The text of a value in a field. -/
def csvText : Value → String
  | .null => ""
  | .text s => s
  | .list vs => (Value.list vs).json
  | .mapping es => (Value.mapping es).json
  | v => v.display

/-- A row; a lone empty field is put in quotes, so that the row is not empty. -/
def csvRow (lineEnd : String) (fields : List String) : String :=
  match fields with
  | [""] => "\"\"" ++ lineEnd
  | fields => String.intercalate "," (fields.map csvField) ++ lineEnd

end LocalSat.Events
