/-!
# Literals

A literal is a variable or its negation. In files it is a non-zero signed integer: variable `i` is
written `i + 1`, its negation `-(i + 1)`. Main statements: `toSigned` and `ofSigned?` undo each other
(`ofSigned?_toSigned`, `toSigned_ofSigned?`).

| here | there |
| --- | --- |
| `ofSigned?`, `toSigned` | `Literal.from_dimacs`, `Literal.to_dimacs` |
| `evaluate` | `Literal.evaluate`, `is_unassigned` |
-/

namespace LocalSat

/-- A variable, by its index, or its negation. -/
structure Literal where
  var : Int
  negated : Bool
deriving DecidableEq, Repr

namespace Literal

/-- The literal that a signed integer stands for; zero stands for none. -/
def ofSigned? (n : Int) : Option Literal :=
  if n = 0 then none else some ⟨n.natAbs - 1, decide (n < 0)⟩

/-- The signed integer of a literal. -/
def toSigned (l : Literal) : Int :=
  if l.negated then -(l.var + 1) else l.var + 1

/-- The truth value of the literal when its variable holds `b`, none for an unassigned variable. -/
def evaluate (l : Literal) (b : Option Bool) : Option Bool :=
  b.map (· != l.negated)

/-- The literal with its parts named. -/
def describe (l : Literal) : String :=
  "Literal(variable=" ++ toString l.var ++ ", negated=" ++ (if l.negated then "True" else "False") ++ ")"

theorem toSigned_ofSigned? {n : Int} {l : Literal} (h : ofSigned? n = some l) : l.toSigned = n := by
  unfold ofSigned? at h
  split at h
  · simp at h
  · simp only [Option.some.injEq] at h
    subst h
    simp only [toSigned, decide_eq_true_eq]
    split <;> omega

theorem ofSigned?_toSigned {l : Literal} (h : 0 ≤ l.var) : ofSigned? l.toSigned = some l := by
  obtain ⟨v, neg⟩ := l
  have hv : 0 ≤ v := h
  cases neg
  · have hne : v + 1 ≠ 0 := by omega
    have ha : ((v + 1).natAbs : Int) - 1 = v := by omega
    simp only [ofSigned?, toSigned, hne, if_false, ha, Bool.false_eq_true]
    simp only [Option.some.injEq, mk.injEq, decide_eq_false_iff_not, true_and]
    omega
  · have hne : -(v + 1) ≠ 0 := by omega
    have ha : ((-(v + 1)).natAbs : Int) - 1 = v := by omega
    simp only [ofSigned?, toSigned, hne, if_false, if_true, ha]
    simp only [Option.some.injEq, mk.injEq, decide_eq_true_eq, true_and]
    omega

theorem ofSigned?_eq_none_iff {n : Int} : ofSigned? n = none ↔ n = 0 := by
  simp [ofSigned?]

theorem exists_ofSigned? {n : Int} (h : n ≠ 0) : ∃ l, ofSigned? n = some l :=
  Option.ne_none_iff_exists'.1 fun hn => h (ofSigned?_eq_none_iff.1 hn)

theorem var_nonneg_of_ofSigned? {n : Int} {l : Literal} (h : ofSigned? n = some l) : 0 ≤ l.var := by
  unfold ofSigned? at h
  split at h
  · cases h
  · cases h
    show (0 : Int) ≤ n.natAbs - 1
    omega

theorem ofSigned?_eq_some_iff {n : Int} {l : Literal} :
    ofSigned? n = some l ↔ l.toSigned = n ∧ 0 ≤ l.var := by
  constructor
  · exact fun h => ⟨toSigned_ofSigned? h, var_nonneg_of_ofSigned? h⟩
  · rintro ⟨rfl, h⟩
    exact ofSigned?_toSigned h

theorem natAbs_toSigned {l : Literal} (h : 0 ≤ l.var) : (l.toSigned.natAbs : Int) = l.var + 1 := by
  unfold toSigned
  split <;> omega

end Literal

end LocalSat
