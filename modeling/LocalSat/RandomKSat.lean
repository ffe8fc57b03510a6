import LocalSat.Formula
import LocalSat.Random.Sample

/-!
# Random k-SAT instances

A random instance over `n` variables has clauses of `k` distinct variables each, every one negated with
probability one half. The clauses are drawn one after the other from one seeded generator, so a longer
instance with the same seed starts with the clauses of a shorter one.

| here | there |
| --- | --- |
| `generate`, `batch` | `generate_random_ksat`, `batch_generate_ksat` |
-/

namespace LocalSat.RandomKSat

open LocalSat.Random

/-- Why there is no instance. -/
inductive Error where
  /-- A clause would need more variables than there are. -/
  | clauseSize (k n : Int)
  | random (e : Random.Error)
  | formula (e : FormulaError)
  /-- A number in a message or in the comment is too long to be shown. -/
  | tooLong
deriving DecidableEq, Repr

/-- Signs the variables: a true coin leaves the variable, a false one negates it. -/
def signed (vars : List Nat) (coins : List Bool) : List Int :=
  vars.zipWith (fun v b => if b then (v : Int) + 1 else -((v : Int) + 1)) coins

/-- One clause, as signed integers, over the first `n` variables. -/
def drawClause (n k : Nat) (g : Generator) : List Int × Generator :=
  let (vars, g) := sample n k g
  let (coins, g) := g.coins k
  (signed vars coins, g)

/-- That many clauses. -/
def drawClauses (n k : Nat) : Nat → Generator → List (List Int) × Generator
  | 0, g => ([], g)
  | m + 1, g =>
    let (c, g) := drawClause n k g
    let (cs, g) := drawClauses n k m g
    (c :: cs, g)

/-- The signed integers of all clauses, or the reason why the first clause cannot be drawn. -/
def draw (n m k : Int) (g : Generator) : Except Random.Error (List (List Int)) :=
  if m ≤ 0 then .ok []
  else if n ≤ 0 ∧ k ≠ 0 then .error .emptyPool
  else if k < 0 then .error .negativeSize
  else .ok (drawClauses n.toNat k.toNat m.toNat g).1

/-- The error about clauses of more variables than there are. -/
def Error.ofSizes (k n : Int) : Error :=
  if Text.Printable k ∧ Text.Printable n then .clauseSize k n else .tooLong

/-- The comment that tells how an instance was made. -/
def comment (n m k : Int) (seed : Value) : String :=
  "random " ++ toString k ++ "-SAT, " ++ toString n ++ " variables, " ++ toString m
    ++ " clauses, seed " ++ seed.display

/-- All that the comment names can be printed. -/
def Named (n m k : Int) (seed : Value) : Prop :=
  (Text.Printable n ∧ Text.Printable m ∧ Text.Printable k) ∧ seed.printable = true

instance (n m k : Int) (seed : Value) : Decidable (Named n m k seed) :=
  inferInstanceAs (Decidable (_ ∧ _))

/-- The random instance of `m` clauses of `k` literals over `n` variables. The comment is made after the
clauses have been drawn, and before they are made into a formula. -/
def generate (n m k : Int) (seed : Value) : Except Error Formula := do
  if n < k then throw (.ofSizes k n)
  let g ← (if seed matches .null then .ok (Generator.ofSeed 0) else Generator.ofValue seed).mapError
    Error.random
  let lists ← (draw n m k g).mapError Error.random
  if ¬ Named n m k seed then throw .tooLong
  (Formula.build Clause.ofSigned n lists [comment n m k seed]).mapError Error.formula

/-- The seed `i` places after `seed`; an absent seed stays absent. -/
def laterSeed (seed : Value) (i : Nat) : Value :=
  match seed with
  | .real x => .real (x + i.toFloat)
  | v => match v.integer? with
    | some n => .int (n + i)
    | none => v

/-- Instances with consecutive seeds, from `seed` on. -/
def batch (n m k count : Int) (seed : Value) : Except Error (List Formula) :=
  (List.range count.toNat).mapM fun (i : Nat) => generate n m k (laterSeed seed i)

end LocalSat.RandomKSat
