import LocalSat.Formula
import LocalSat.Text.Utf8

/-!
# What is wrong with DIMACS input

Every reason why input is no formula, with the line where it was found.
-/

namespace LocalSat.Dimacs

/-- What is wrong with the problem line. -/
inductive HeaderFault where
  /-- There is a second one. -/
  | repeated
  /-- It has not the four parts `p cnf N M`. -/
  | misshapen (line : String)
  | unknownFormat (format : String)
  /-- A count is not an integer. -/
  | notNumbers (line : String)
  | negative (line : String)
  /-- There is none. -/
  | missing
deriving DecidableEq, Repr

/-- Why input is not a formula. -/
inductive ReadError where
  | header (fault : HeaderFault) (line : Option Nat)
  | badToken (token : String) (line : Nat)
  /-- A literal's variable exceeds the declared number. -/
  | undeclared (var declared : Nat) (clause : List Int) (line : Nat)
  | countMismatch (declared parsed : Nat)
  /-- The octets of the file are no text. -/
  | notText (path : String) (fault : Text.Utf8.Fault)
  /-- The parts do not make a formula. -/
  | formula (e : FormulaError)
deriving DecidableEq, Repr

end LocalSat.Dimacs
