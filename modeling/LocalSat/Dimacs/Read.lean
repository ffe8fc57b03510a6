import LocalSat.Dimacs.Error
import LocalSat.Text.Integer
import LocalSat.Text.Lines

/-!
# Reading the DIMACS format

Reading has two passes. `items` goes through the lines once: comments start with `c`, the one problem
line starts with `p`, blank lines are skipped, and every other line holds the literals of a clause up to
its first zero. `assemble` then compares the clauses with the problem line, which may stand anywhere.
So a fault in the form of a line wins over a clause that exceeds the declared sizes.

| here | there |
| --- | --- |
| `header?` | `_parse_header` |
| `literals?` | `_parse_clause_line` |
| `items`, `assemble` | the loop over the lines in `parse_dimacs`, and what follows it |
| `read` | `parse_dimacs` |
-/

namespace LocalSat.Dimacs

open LocalSat.Text

/-- What a line of the input contributes. -/
inductive Item where
  | comment (text : String)
  | header (numVariables numClauses : Nat)
  | clause (line : Nat) (literals : List Int)
deriving DecidableEq, Repr

/-- The two counts of a problem line. -/
def header? (line : List Char) : Except HeaderFault (Nat × Nat) :=
  match words line with
  | [p, format, n, m] =>
    if p ≠ ['p'] then .error (.misshapen (String.ofList line))
    else if format ≠ ['c', 'n', 'f'] then .error (.unknownFormat (String.ofList format))
    else match integer? n, integer? m with
      | some n, some m =>
        if n < 0 ∨ m < 0 then .error (.negative (String.ofList line)) else .ok (n.toNat, m.toNat)
      | _, _ => .error (.notNumbers (String.ofList line))
  | _ => .error (.misshapen (String.ofList line))

/-- The literals before the first zero; what follows the zero is ignored. -/
def literals? : List (List Char) → Except String (List Int)
  | [] => .ok []
  | t :: ts =>
    match integer? t with
    | none => .error (String.ofList t)
    | some n => if n = 0 then .ok [] else (literals? ts).map (n :: ·)

/-- The items of the lines, the first of which has number `n`; `seen` tells whether a problem line has
been read. Clause lines without literals contribute nothing. -/
def items (seen : Bool) (n : Nat) : List (List Char) → Except ReadError (List Item)
  | [] => .ok []
  | l :: ls =>
    match strip l with
    | [] => items seen (n + 1) ls
    | 'c' :: text => (items seen (n + 1) ls).map (.comment (String.ofList (strip text)) :: ·)
    | 'p' :: rest =>
      if seen then .error (.header .repeated (some n))
      else match header? ('p' :: rest) with
        | .error fault => .error (.header fault (some n))
        | .ok (nv, nc) => (items true (n + 1) ls).map (.header nv nc :: ·)
    | line =>
      match literals? (words line) with
      | .error token => .error (.badToken token n)
      | .ok [] => items seen (n + 1) ls
      | .ok (v :: vs) => (items seen (n + 1) ls).map (.clause n (v :: vs) :: ·)

/-- The comments among the items. -/
def comments (is : List Item) : List String :=
  is.filterMap fun | .comment t => some t | _ => none

/-- The counts of the problem line among the items. -/
def counts? (is : List Item) : Option (Nat × Nat) :=
  is.findSome? fun | .header n m => some (n, m) | _ => none

/-- The clauses among the items, with their line numbers. -/
def clauseLines (is : List Item) : List (Nat × List Int) :=
  is.filterMap fun | .clause l vs => some (l, vs) | _ => none

/-- The clauses of the clause lines, each within the declared number of variables. -/
def clauses? (declared : Nat) : List (Nat × List Int) → Except ReadError (List Clause)
  | [] => .ok []
  | (line, vs) :: rest =>
    match vs.find? (fun v => declared < v.natAbs) with
    | some v => .error (.undeclared v.natAbs declared vs line)
    | none =>
      match Clause.ofSigned vs with
      | .error e => .error (.formula (.clause e))
      | .ok c => (clauses? declared rest).map (c :: ·)

/-- The formula that the items describe. -/
def assemble (is : List Item) : Except ReadError Formula :=
  match counts? is with
  | none => .error (.header .missing none)
  | some (n, m) =>
    match clauses? n (clauseLines is) with
    | .error e => .error e
    | .ok cs =>
      if cs.length ≠ m then .error (.countMismatch m cs.length)
      else match Formula.ofClauses n cs (comments is) with
        | .error e => .error (.formula e)
        | .ok f => .ok f

/-- The formula that lines describe. -/
def ofLines (ls : List (List Char)) : Except ReadError Formula :=
  match items false 1 ls with
  | .error e => .error e
  | .ok is => assemble is

/-- Reads a text whose lines end by the given convention. -/
def read (ends : LineEnds) (text : String) : Except ReadError Formula :=
  ofLines (lines ends text.toList)

/-- Reads the octets of the file at `path`; they are decoded as a whole before any line is read. -/
def readOctets (path : String) (octets : List UInt8) : Except ReadError Formula :=
  match Utf8.decode octets with
  | .error fault => .error (.notText path fault)
  | .ok cs => ofLines (lines .newline cs)

end LocalSat.Dimacs
