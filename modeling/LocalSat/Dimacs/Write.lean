import LocalSat.Formula

/-!
# Writing the DIMACS format

Comments come first, then the problem line, then one line per clause, each ended by a zero.

| here | there |
| --- | --- |
| `write` | `formula_to_dimacs` |
-/

namespace LocalSat.Dimacs

/-- A comment line; an empty comment leaves only its mark. -/
def commentLine (comment : String) : String :=
  if comment.isEmpty then "c" else "c " ++ comment

/-- The line of a clause. -/
def clauseLine (c : Clause) : String :=
  String.intercalate " " (c.toSigned.map toString) ++ " 0"

/-- The problem line. -/
def problemLine (f : Formula) : String :=
  "p cnf " ++ toString f.numVariables ++ " " ++ toString f.size

/-- The lines of a formula under the given comments. -/
def writtenLines (f : Formula) (comments : List String) : List String :=
  comments.map commentLine ++ problemLine f :: f.clauses.map clauseLine

/-- The text of a formula under the given comments, or else its own. The program fails on a number of more
digits than are printed, such as only a formula made by hand has; here it is written out. -/
def write (f : Formula) (comments : Option (List String)) : String :=
  String.intercalate "\n" (writtenLines f (comments.getD f.comments)) ++ "\n"

end LocalSat.Dimacs
