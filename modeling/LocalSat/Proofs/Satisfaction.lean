import Mathlib.Data.List.Basic
import LocalSat.Assignment

/-!
# What the evaluators compute

A `Valuation` says what each variable holds; `Holds` says when a literal, a clause and a formula are true
under it. A reading that finds an entry for every variable of a formula reads some valuation
(`Reading.Reads`), and then every evaluator answers, with a quantity of that valuation alone:
`isSatisfied_eq`, `satisfiedCount_eq`, `unsatisfiedCount_eq` and `violated_eq`. Assignments of the
formula's length and lists of that many truth values are such readings (`reads_look`, `reads_ofValues`).
-/

namespace LocalSat

/-- What each variable holds: a truth value, or nothing. -/
abbrev Valuation := Int → Option Bool

/-! ## Truth under a valuation -/

/-- A literal is true when its variable holds the value that it asks for. -/
def Literal.Holds (l : Literal) (v : Valuation) : Prop := v l.var = some (!l.negated)

instance (l : Literal) (v : Valuation) : Decidable (l.Holds v) :=
  inferInstanceAs (Decidable (_ = _))

/-- A clause is true when one of its literals is. -/
def Clause.Holds (c : Clause) (v : Valuation) : Prop := ∃ l ∈ c.literals, l.Holds v

instance (c : Clause) (v : Valuation) : Decidable (c.Holds v) :=
  inferInstanceAs (Decidable (∃ l ∈ c.literals, l.Holds v))

/-- A formula is true when all its clauses are. -/
def Formula.Holds (f : Formula) (v : Valuation) : Prop := ∀ c ∈ f.clauses, c.Holds v

instance (f : Formula) (v : Valuation) : Decidable (f.Holds v) :=
  inferInstanceAs (Decidable (∀ c ∈ f.clauses, c.Holds v))

/-- The clauses that are not true. -/
def Formula.falsified (f : Formula) (v : Valuation) : List Clause :=
  f.clauses.filter fun c => !decide (c.Holds v)

theorem mem_falsified {f : Formula} {v : Valuation} {c : Clause} :
    c ∈ f.falsified v ↔ c ∈ f.clauses ∧ ¬ c.Holds v := by
  simp [Formula.falsified]

theorem falsified_eq_nil_iff {f : Formula} {v : Valuation} : f.falsified v = [] ↔ f.Holds v := by
  simp [Formula.falsified, Formula.Holds]

theorem exists_falsified {f : Formula} {v : Valuation} (h : ¬ f.Holds v) :
    ∃ c ∈ f.clauses, ¬ c.Holds v := by
  simpa [Formula.Holds] using h

/-- A formula stays true when more variables hold a value. -/
theorem Formula.Holds.mono {f : Formula} {v w : Valuation} (h : f.Holds v)
    (hvw : ∀ i b, v i = some b → w i = some b) : f.Holds w := by
  intro c hc
  obtain ⟨l, hl, hlv⟩ := h c hc
  exact ⟨l, hl, hvw l.var _ hlv⟩

theorem evaluate_eq_some_true_iff {l : Literal} {b : Option Bool} :
    l.evaluate b = some true ↔ b = some (!l.negated) := by
  cases b with
  | none => simp [Literal.evaluate]
  | some b => cases b <;> cases hl : l.negated <;> simp [Literal.evaluate, hl]

/-! ## The evaluators on a reading of a valuation -/

/-- The reading finds the valuation's entry for every variable that occurs in the clauses. -/
def Reading.Covers (look : Reading) (v : Valuation) (cs : List Clause) : Prop :=
  ∀ c ∈ cs, ∀ l ∈ c.literals, look l.var = .ok (v l.var)

/-- The reading finds the valuation's entry for every variable of the formula. -/
def Reading.Reads (look : Reading) (v : Valuation) (f : Formula) : Prop := look.Covers v f.clauses

section
variable {look : Reading} {v : Valuation}

theorem Reading.Covers.tail {c : Clause} {cs : List Clause} (h : look.Covers v (c :: cs)) :
    look.Covers v cs :=
  fun d hd => h d (List.mem_cons_of_mem c hd)

theorem anyTrue_eq : ∀ {ls : List Literal}, (∀ l ∈ ls, look l.var = .ok (v l.var)) →
    anyTrue look ls = .ok (decide (∃ l ∈ ls, l.Holds v))
  | [], _ => by simp [anyTrue]
  | l :: ls, h => by
    have ih := anyTrue_eq fun k hk => h k (List.mem_cons_of_mem l hk)
    have he : l.evaluate (v l.var) = some true ↔ l.Holds v := evaluate_eq_some_true_iff
    rw [isSatisfied_cons look l ls (h l List.mem_cons_self), ih]
    by_cases hl : l.Holds v
    · simp [he, hl]
    · simp [he, hl]

theorem clause_isSatisfied_eq {c : Clause} (h : ∀ l ∈ c.literals, look l.var = .ok (v l.var)) :
    c.isSatisfied look = .ok (decide (c.Holds v)) :=
  anyTrue_eq h

theorem allSatisfied_eq : ∀ {cs : List Clause}, look.Covers v cs →
    allSatisfied look cs = .ok (decide (∀ c ∈ cs, c.Holds v))
  | [], _ => by simp [allSatisfied]
  | c :: cs, h => by
    have ih := allSatisfied_eq h.tail
    rw [allSatisfied, clause_isSatisfied_eq (h c List.mem_cons_self)]
    by_cases hc : c.Holds v
    · simp [hc, ih]
    · simp [hc]

theorem countSatisfied_eq : ∀ {cs : List Clause}, look.Covers v cs →
    countSatisfied look cs = .ok (cs.countP fun c => decide (c.Holds v))
  | [], _ => by simp [countSatisfied]
  | c :: cs, h => by
    have ih := countSatisfied_eq h.tail
    rw [countSatisfied, clause_isSatisfied_eq (h c List.mem_cons_self), ih, List.countP_cons]
    by_cases hc : c.Holds v
    · simp [hc, Except.map]
    · simp [hc, Except.map]

theorem violated_eq : ∀ {cs : List Clause}, look.Covers v cs →
    violated look cs = .ok (cs.filter fun c => !decide (c.Holds v))
  | [], _ => by simp [violated]
  | c :: cs, h => by
    have ih := violated_eq h.tail
    rw [violated, clause_isSatisfied_eq (h c List.mem_cons_self), ih, List.filter_cons]
    by_cases hc : c.Holds v
    · simp [hc, Except.map]
    · simp [hc, Except.map]

end

theorem countP_add_falsified (f : Formula) (v : Valuation) :
    (f.clauses.countP fun c => decide (c.Holds v)) + (f.falsified v).length = f.size := by
  rw [Formula.falsified, ← List.countP_eq_length_filter, Formula.size]
  have h := List.length_eq_countP_add_countP (fun c => decide (c.Holds v)) (l := f.clauses)
  simp only [Bool.not_eq_true, decide_eq_false_iff_not] at h
  simp only [h, ← decide_not]

section
variable {f : Formula} {look : Reading} {v : Valuation}

theorem isSatisfied_eq (h : look.Reads v f) : f.isSatisfied look = .ok (decide (f.Holds v)) :=
  allSatisfied_eq h

theorem satisfiedCount_eq (h : look.Reads v f) :
    f.satisfiedCount look = .ok (f.clauses.countP fun c => decide (c.Holds v)) :=
  countSatisfied_eq h

theorem unsatisfiedCount_eq (h : look.Reads v f) :
    f.unsatisfiedCount look = .ok (f.falsified v).length := by
  have hc := countP_add_falsified f v
  rw [Formula.unsatisfiedCount, satisfiedCount_eq h, Except.map]
  congr 1
  omega

theorem isSatisfied_eq_true_iff (h : look.Reads v f) : f.isSatisfied look = .ok true ↔ f.Holds v := by
  rw [isSatisfied_eq h]
  simp

theorem satisfiedCount_eq_size_iff {n : Nat} (h : look.Reads v f) (hn : f.satisfiedCount look = .ok n) :
    n = f.size ↔ f.Holds v := by
  have hc := countP_add_falsified f v
  rw [satisfiedCount_eq h, Except.ok.injEq] at hn
  rw [← falsified_eq_nil_iff, ← List.length_eq_zero_iff]
  omega

end

theorem anyTrue_congr {look look' : Reading} : ∀ {ls : List Literal},
    (∀ l ∈ ls, look l.var = look' l.var) → anyTrue look ls = anyTrue look' ls
  | [], _ => rfl
  | l :: ls, h => by
    have ih := anyTrue_congr fun k hk => h k (List.mem_cons_of_mem l hk)
    simp only [anyTrue, h l List.mem_cons_self, ih]

/-! ## Readings of assignments and of lists of truth values -/

/-- What the variables hold, in order. -/
abbrev Values := Array (Option Bool)

/-- The values of an assignment as a valuation. -/
def valuation (vs : Values) : Valuation := fun i => vs.getD i.toNat none

/-- A list of truth values as a valuation. -/
def truths (bs : List Bool) : Valuation := fun i => bs[i.toNat]?

/-- A formula is satisfiable when some truth values of its variables make every clause true. -/
def Formula.Satisfiable (f : Formula) : Prop :=
  ∃ bs : List Bool, bs.length = f.numVariables ∧ f.Holds (truths bs)

/-- The truth values are one for each of the values, and keep those that are assigned. -/
def Completes (bs : List Bool) (vs : Values) : Prop :=
  bs.length = vs.size ∧ ∀ (j : Nat) (b : Bool), vs[j]? = some (some b) → bs[j]? = some b

theorem Completes.truths_eq {bs : List Bool} {vs : Values} (h : Completes bs vs) {i : Int} {b : Bool}
    (hi : valuation vs i = some b) : truths bs i = some b := by
  refine h.2 i.toNat b ?_
  rw [valuation, Array.getD_eq_getD_getElem?] at hi
  cases hv : vs[i.toNat]? with
  | none => simp [hv] at hi
  | some x =>
    simp only [hv, Option.getD_some] at hi
    rw [hi]

theorem position?_toNat {size : Nat} {i : Int} (h0 : 0 ≤ i) (h : i < size) :
    position? size i = some i.toNat := by
  obtain ⟨n, rfl⟩ := Int.eq_ofNat_of_zero_le h0
  exact position?_natCast (by simpa using h)

/-- A variable in range is looked up at its place. -/
theorem look_eq {a : Assignment} {i : Int} (h0 : 0 ≤ i) (h : i < a.size) :
    a.look i = .ok (valuation a.values i) := by
  refine Assignment.look_eq_ok_iff.2 ⟨i.toNat, position?_toNat h0 h, ?_⟩
  have hi : i.toNat < a.values.size := by
    have hs : a.size = a.values.size := rfl
    omega
  simp [valuation, hi]

theorem reads_look {f : Formula} {a : Assignment} (h : a.size = f.numVariables) :
    Reading.Reads a.look (valuation a.values) f := by
  intro c hc l hl
  obtain ⟨h0, hlt⟩ := f.inRange c hc l hl
  exact look_eq h0 (by rw [h]; exact hlt)

theorem reads_ofValues {f : Formula} {bs : List Bool} (h : bs.length = f.numVariables) :
    Reading.Reads (Reading.ofValues (bs.map Value.bool).toArray) (truths bs) f := by
  intro c hc l hl
  obtain ⟨h0, hlt⟩ := f.inRange c hc l hl
  have hp : position? bs.length l.var = some l.var.toNat := position?_toNat h0 (by rw [h]; exact hlt)
  have hi : l.var.toNat < bs.length := position?_lt hp
  simp [Reading.ofValues, hp, truths, hi, Value.truth, Value.isUnassigned, Value.isTrue]

/-- **A completion of values that make a formula true is a model.** -/
theorem Completes.isSatisfied {f : Formula} {bs : List Bool} {vs : Values} (h : Completes bs vs)
    (hsize : vs.size = f.numVariables) (hf : f.Holds (valuation vs)) :
    f.isSatisfied (Reading.ofValues (bs.map Value.bool).toArray) = .ok true := by
  rw [isSatisfied_eq_true_iff (reads_ofValues (h.1.trans hsize))]
  exact hf.mono fun i b => h.truths_eq

/-- Satisfiability in terms of the evaluator. -/
theorem satisfiable_iff {f : Formula} : f.Satisfiable ↔ ∃ bs : List Bool, bs.length = f.numVariables ∧
    f.isSatisfied (Reading.ofValues (bs.map Value.bool).toArray) = .ok true := by
  refine exists_congr fun bs => and_congr_right fun h => ?_
  rw [isSatisfied_eq_true_iff (reads_ofValues h)]

end LocalSat
