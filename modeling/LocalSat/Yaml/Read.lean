import LocalSat.Text.Lines
import LocalSat.Yaml.Scalar
import LocalSat.Yaml.Write

/-!
# Reading YAML

Reads one document of block and flow mappings and lists with plain, quoted and block scalars. Structure
is told by columns, so the reader carries the column of what comes next. Keys must differ, and a tab
starts nothing. Anchors, tags and directives are not read. A reading step takes one unit of fuel, of
which there is more than the text can use up.
-/

namespace LocalSat.Yaml

open LocalSat.Text

/-! ## Cursors -/

/-- What is still to be read, the column where it starts, and whether only blanks precede it there. -/
structure Cursor where
  rest : List Char
  column : Nat
  fresh : Bool

/-- Moves over blanks, line ends and comments. -/
def skipFrom (comment : Bool) (column : Nat) (fresh : Bool) : List Char → Cursor
  | [] => ⟨[], column, fresh⟩
  | c :: cs =>
    if c == '\n' then skipFrom false 0 true cs
    else if comment then skipFrom true (column + 1) fresh cs
    else if c == ' ' then skipFrom false (column + 1) fresh cs
    else if c == '#' then skipFrom true (column + 1) fresh cs
    else ⟨c :: cs, column, fresh⟩

namespace Cursor

/-- The start of the next token. -/
def skip (c : Cursor) : Cursor := skipFrom false c.column c.fresh c.rest

/-- Moves over `n` characters of a line. -/
def drop (c : Cursor) (n : Nat) : Cursor :=
  if n = 0 then c else ⟨c.rest.drop n, c.column + n, false⟩

/-- Whether the next character is `m`, standing alone. -/
def atMark (c : Cursor) (m : Char) : Bool :=
  match c.rest with
  | d :: cs => d == m && (match cs with | [] => true | e :: _ => isGap e)
  | [] => false

/-- Whether a line of three marks `m` comes next, which delimits documents. -/
def atThree (c : Cursor) (m : Char) : Bool :=
  c.column == 0 && c.rest.take 3 == [m, m, m] &&
    (match c.rest.drop 3 with | [] => true | e :: _ => isGap e)

/-- Whether the document ends here. -/
def atEnd (c : Cursor) : Bool := c.rest.isEmpty || c.atThree '-' || c.atThree '.'

end Cursor

/-! ## Scalars -/

/-- The characters of a plain scalar on one line. -/
def plainLine (inFlow : Bool) (before : Char) : List Char → List Char
  | [] => []
  | c :: cs =>
    let follows : Bool := match cs with
      | [] => true
      | d :: _ => isGap d || (inFlow && ",[]\x7b\x7d".toList.contains d)
    if c == '\n' || c == '\t' then []
    else if c == ':' && follows then []
    else if c == '#' && before == ' ' then []
    else if inFlow && ",?[]\x7b\x7d".toList.contains c then []
    else c :: plainLine inFlow c cs

/-- Text without blanks at its end. -/
def trimEnd (cs : List Char) : List Char := (cs.reverse.dropWhile (· == ' ')).reverse

/-- Lines put together: one end becomes a blank, each further end stays. -/
def foldLines : List (List Char) → List Char
  | [] => []
  | [l] => l
  | l :: [] :: ls =>
    let empty := ls.takeWhile List.isEmpty
    l ++ List.replicate (empty.length + 1) '\n' ++ foldLines (ls.dropWhile List.isEmpty)
  | l :: ls => l ++ ' ' :: foldLines ls
termination_by ls => ls.length
decreasing_by
  · have := (List.dropWhile_suffix (l := ls) List.isEmpty).length_le
    simp only [List.length_cons]
    omega
  · simp

/-- Further lines of a plain scalar, as long as they start at `least` or beyond. -/
def plainMore (inFlow : Bool) (least : Nat) : Nat → Cursor → List (List Char) × Cursor
  | 0, c => ([], c)
  | fuel + 1, c =>
    let ahead := c.rest.takeWhile fun d => d == ' ' || d == '\n'
    let ends := ahead.count '\n'
    let column := (ahead.reverse.takeWhile (· == ' ')).length
    let next : Cursor := ⟨c.rest.drop ahead.length, column, true⟩
    if ends = 0 || next.atEnd || next.rest.head? == some '#' || (!inFlow && column < least) then ([], c)
    else
      let line := plainLine inFlow ' ' next.rest
      if line.isEmpty then ([], c)
      else
        let (ls, c) := plainMore inFlow least fuel (next.drop line.length)
        (List.replicate (ends - 1) [] ++ trimEnd line :: ls, c)

/-- The text between single quotes; a quote inside is doubled. -/
def singleQuoted : List Char → Option (List Char × Nat)
  | [] => none
  | '\'' :: '\'' :: cs => (singleQuoted cs).map fun (t, n) => ('\'' :: t, n + 2)
  | '\'' :: _ => some ([], 1)
  | c :: cs => (singleQuoted cs).map fun (t, n) => (c :: t, n + 1)

/-- The character that a short escape stands for. -/
def shortEscape? (c : Char) : Option Char :=
  let table : List (Char × Nat) :=
    [('0', 0), ('a', 7), ('b', 8), ('t', 9), ('\t', 9), ('n', 10), ('v', 11), ('f', 12), ('r', 13),
     ('e', 27), (' ', 32), ('"', 34), ('/', 47), ('\\', 92), ('N', 0x85), ('_', 0xa0), ('L', 0x2028),
     ('P', 0x2029)]
  (table.lookup c).map Char.ofNat

/-- The number of digits that follow a long escape. -/
def escapeWidth? (c : Char) : Option Nat :=
  [('x', 2), ('u', 4), ('U', 8)].lookup c

/-- The text between double quotes, escapes taken; blanks around line ends are marked for folding by
being left as they are. -/
def doubleQuoted : Nat → List Char → Option (List Char × Nat)
  | 0, _ => none
  | _ + 1, [] => none
  | _ + 1, '"' :: _ => some ([], 1)
  | fuel + 1, '\\' :: e :: cs =>
    match shortEscape? e with
    | some d => (doubleQuoted fuel cs).map fun (t, n) => (d :: t, n + 2)
    | none =>
      if e == '\n' then
        let gap := (cs.takeWhile (· == ' ')).length
        (doubleQuoted fuel (cs.drop gap)).map fun (t, n) => (t, n + 2 + gap)
      else match escapeWidth? e with
        | some w =>
          if (cs.take w).length = w then
            match inBase 16 (cs.take w) with
            | some k => (doubleQuoted fuel (cs.drop w)).map fun (t, n) => (Char.ofNat k :: t, n + 2 + w)
            | none => none
          else none
        | none => none
  | fuel + 1, c :: cs => (doubleQuoted fuel cs).map fun (t, n) => (c :: t, n + 1)

/-- Folds the line ends of a quoted text, blanks around them dropped. -/
def foldQuoted (cs : List Char) : List Char :=
  match pieces (· == '\n') cs with
  | [] => []
  | [l] => l
  | l :: ls =>
    let inner := ls.dropLast.map fun m => trimEnd (m.dropWhile (· == ' '))
    let last := (ls.getLast?.getD []).dropWhile (· == ' ')
    foldLines (trimEnd l :: inner ++ [last])

/-- A quoted scalar, and whether it ended on the line where it started. -/
def quotedScalar? (c : Cursor) : Option (String × Cursor × Bool) := do
  let (body, n) ← match c.rest with
    | '\'' :: cs => singleQuoted cs
    | '"' :: cs => doubleQuoted (cs.length + 1) cs
    | _ => none
  let taken := c.rest.take (n + 1)
  let lines := taken.count '\n'
  let column := if lines = 0 then c.column + n + 1 else (taken.reverse.takeWhile (· != '\n')).length
  return (String.ofList (foldQuoted body), ⟨c.rest.drop (n + 1), column, false⟩, lines == 0)

/-- Whether a plain scalar can start here. -/
def startsPlain (c : Cursor) : Bool :=
  match c.rest with
  | [] => false
  | d :: _ =>
    if d == '-' || d == '?' || d == ':' then !c.atMark d
    else !(",[]\x7b\x7d#&*!|>'\"%@\x60\t".toList.contains d)

/-- A key: a scalar on one line with a colon behind it. The cursor comes to stand behind the colon. -/
def key? (inFlow : Bool) (c : Cursor) : Option (String × Cursor) := do
  let (k, after, quoted) ← match c.rest.head? with
    | some q =>
      if q == '\'' || q == '"' then do
        let (s, after, oneLine) ← quotedScalar? c
        guard oneLine
        some (s, after, true)
      else do
        guard (startsPlain c)
        let line := plainLine inFlow ' ' c.rest
        some (String.ofList (trimEnd line), c.drop line.length, false)
    | none => none
  let after := after.drop (after.rest.takeWhile (· == ' ')).length
  guard (after.rest.head? == some ':' && (after.atMark ':' || (inFlow && quoted) ||
    (inFlow && ((after.rest[1]?).any fun d => ",[]\x7b\x7d".toList.contains d))))
  return (k, after.drop 1)

/-- A block scalar: the lines deeper than `parent`, kept or folded, with the ends after them kept as the
indicator says. -/
def blockScalar? (parent : Option Nat) (c : Cursor) : Option (String × Cursor) := do
  let folded ← match c.rest.head? with
    | some '|' => some false
    | some '>' => some true
    | _ => none
  let header := ((c.rest.drop 1).takeWhile (· != '\n')).takeWhile (· != '#')
  let header := trimEnd header
  guard (["", "-", "+"].contains (String.ofList header))
  let body := ((c.rest.dropWhile (· != '\n')).drop 1)
  let all := pieces (· == '\n') body
  let indentOf (l : List Char) : Nat := (l.takeWhile (· == ' ')).length
  let isEmpty (l : List Char) : Bool := l.all (· == ' ')
  let depth := match all.find? (fun l => !isEmpty l) with
    | some l => indentOf l
    | none => 0
  let deep : Bool := match parent with
    | some p => decide (p < depth) || all.all isEmpty
    | none => true
  guard deep
  let mine := all.takeWhile fun l => isEmpty l || (depth ≤ indentOf l && 0 < depth) || (depth == 0)
  let ls := mine.map (·.drop depth)
  let ended := all.length == mine.length
  let kept := (ls.reverse.dropWhile List.isEmpty).reverse
  let trailing := ls.length - kept.length - (if ended then 1 else 0)
  let text := if folded then foldLines kept else List.intercalate ['\n'] kept
  let tail := match String.ofList header with
    | "-" => []
    | "+" => if kept.isEmpty then List.replicate trailing '\n' else List.replicate (trailing + 1) '\n'
    | _ => if kept.isEmpty then [] else ['\n']
  let used := mine.foldl (fun n l => n + l.length + 1) 0
  return (String.ofList (text ++ tail), ⟨body.drop used, 0, true⟩)

/-! ## Collections -/

mutual

/-- A value in flow style. -/
def flow : Nat → Cursor → Option (Value × Cursor)
  | 0, _ => none
  | fuel + 1, c =>
    match c.rest with
    | '[' :: _ => flowItems fuel [] (c.drop 1).skip
    | '\x7b' :: _ => flowEntries fuel [] (c.drop 1).skip
    | q :: _ =>
      if q == '\'' || q == '"' then
        (quotedScalar? c).map fun (s, after, _) => (.text s, after)
      else if startsPlain c then
        let line := plainLine true ' ' c.rest
        let (more, after) := plainMore true 0 c.rest.length (c.drop line.length)
        (ofPlain? (String.ofList (foldLines (trimEnd line :: more)))).map (·, after)
      else none
    | [] => none

/-- The items of a flow list, up to its bracket. A key with its value is a mapping of one entry. -/
def flowItems : Nat → List Value → Cursor → Option (Value × Cursor)
  | 0, _, _ => none
  | fuel + 1, items, c =>
    if c.rest.head? == some ']' then some (.list items.reverse, c.drop 1)
    else do
      let (v, c) ← match key? true c with
        | some (k, c) =>
          let c := c.skip
          match c.rest with
          | ',' :: _ => some (Value.mapping [(k, .null)], c)
          | ']' :: _ => some (Value.mapping [(k, .null)], c)
          | _ => (flow fuel c).map fun (v, c) => (Value.mapping [(k, v)], c)
        | none => flow fuel c
      let c := c.skip
      match c.rest with
      | ',' :: _ => flowItems fuel (v :: items) (c.drop 1).skip
      | ']' :: _ => some (.list (v :: items).reverse, c.drop 1)
      | _ => none

/-- The entries of a flow mapping, up to its brace. -/
def flowEntries : Nat → List (String × Value) → Cursor → Option (Value × Cursor)
  | 0, _, _ => none
  | fuel + 1, es, c =>
    if c.rest.head? == some '\x7d' then some (.mapping es.reverse, c.drop 1)
    else do
      let (k, v, c) ← match key? true c with
        | some (k, c) =>
          let c := c.skip
          match c.rest with
          | ',' :: _ => some (k, Value.null, c)
          | '\x7d' :: _ => some (k, Value.null, c)
          | _ => do
            let (v, c) ← flow fuel c
            some (k, v, c.skip)
        | none => do
          guard (startsPlain c)
          let line := plainLine true ' ' c.rest
          some (String.ofList (trimEnd line), Value.null, (c.drop line.length).skip)
      guard ((Value.lookup? k es).isNone)
      match c.rest with
      | ',' :: _ => flowEntries fuel ((k, v) :: es) (c.drop 1).skip
      | '\x7d' :: _ => some (.mapping ((k, v) :: es).reverse, c.drop 1)
      | _ => none

/-- A value on the line of its key or at the start of a node, which is no block collection. A plain one
goes on over lines deeper than `parent`. -/
def inlineValue : Nat → Option Nat → Cursor → Option (Value × Cursor)
  | 0, _, _ => none
  | fuel + 1, parent, c =>
    match c.rest.head? with
    | none => none
    | some d =>
      if d == '[' || d == '\x7b' || d == '\'' || d == '"' then flow fuel c
      else if d == '|' || d == '>' then (blockScalar? parent c).map fun (s, c) => (.text s, c)
      else if startsPlain c then
        let line := plainLine false ' ' c.rest
        let least := match parent with | some p => p + 1 | none => 0
        let (more, after) := plainMore false least c.rest.length (c.drop line.length)
        (ofPlain? (String.ofList (foldLines (trimEnd line :: more)))).map (·, after)
      else none

/-- A node that starts here, inside a block at column `parent`. -/
def node : Nat → Option Nat → Cursor → Option (Value × Cursor)
  | 0, _, _ => none
  | fuel + 1, parent, c =>
    if c.atMark '-' then blockItems fuel c.column [] c
    else if (key? false c).isSome then blockEntries fuel c.column [] c
    else inlineValue fuel parent c

/-- The items of a block list whose dashes stand at a column. -/
def blockItems : Nat → Nat → List Value → Cursor → Option (Value × Cursor)
  | 0, _, _, _ => none
  | fuel + 1, column, items, c => do
    let next := (c.drop 1).skip
    let (v, c) ← if next.atEnd || (next.fresh && next.column ≤ column) then some (Value.null, next)
      else node fuel (some column) next
    let c := c.skip
    if c.atEnd || (c.fresh && c.column < column) then some (.list (v :: items).reverse, c)
    else do
      guard (c.fresh && c.column == column)
      if c.atMark '-' then blockItems fuel column (v :: items) c
      else some (.list (v :: items).reverse, c)

/-- The entries of a block mapping whose keys stand at a column. -/
def blockEntries : Nat → Nat → List (String × Value) → Cursor → Option (Value × Cursor)
  | 0, _, _, _ => none
  | fuel + 1, column, es, c => do
    let (k, c) ← key? false c
    guard ((Value.lookup? k es).isNone)
    let next := c.skip
    let (v, c) ←
      if next.atEnd then some (Value.null, next)
      else if !next.fresh then
        if next.atMark '-' then none else inlineValue fuel (some column) next
      else if column < next.column then node fuel (some column) next
      else if next.column == column && next.atMark '-' then blockItems fuel column [] next
      else some (Value.null, next)
    let c := c.skip
    if c.atEnd || (c.fresh && c.column < column) then some (.mapping ((k, v) :: es).reverse, c)
    else do
      guard (c.fresh && c.column == column)
      blockEntries fuel column ((k, v) :: es) c

end

/-- Whether a character may stand in a document at all; other control characters may not. -/
def isReadable (c : Char) : Bool :=
  let n := c.toNat
  c == '\t' || c == '\n' || c == '\r' || (0x20 ≤ n && n ≤ 0x7e) || n == 0x85 ||
    (0xa0 ≤ n && n ≤ 0xfffd) || 0x10000 ≤ n

/-- A text without the byte order mark that may open it. -/
def withoutMark (cs : List Char) : List Char := if cs.head? == some '\ufeff' then cs.drop 1 else cs

/-- The value of a text with a single document; an empty document is null. -/
def read? (text : String) : Option Value := do
  guard (text.toList.all isReadable)
  let cs := List.intercalate ['\n'] (lines .newline (withoutMark text.toList))
  let fuel := 8 * (cs.length + 8)
  let c : Cursor := (⟨cs, 0, true⟩ : Cursor).skip
  let c := if c.atThree '-' then (c.drop 3).skip else c
  let (v, c) ← if c.atEnd then some (Value.null, c) else node fuel none c
  let c := c.skip
  let c := if c.atThree '.' then (c.drop 3).skip else c
  guard c.rest.isEmpty
  return v

end LocalSat.Yaml
