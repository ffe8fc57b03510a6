import Mathlib.Data.Bool.Count
import LocalSat.Proofs.Greedy.Neighbour

/-!
# How the evaluators agree

A clause is scanned over a list of values of any kind, which may be too short: `Scanned` says where the
scan stops and what comes of it. The evaluators that count or list clauses all scan every clause, so each
of them is a function of the `verdicts` on the clauses and fails when these do; the one that asks whether
all are satisfied stops at the first that is not, and yet answers yes just when none is unsatisfied
(`allSatisfied_eq_true_iff`). A list with an entry for each variable can be given in other forms, as an
assignment or by numbers or truth values (`Represents`), with the same answers (`answers_of_represents`).
Main statement: `evaluators_agree`.
-/

namespace LocalSat

/-! ## Scanning a clause -/

/-- The literal's variable has an entry, and the literal is not true under it. -/
def Passed (vs : Array Value) (l : Literal) : Prop :=
  ∃ v, vs[l.var.toNat]? = some v ∧ l.evaluate v.truth ≠ some true

/-- What comes of scanning literals over values: the first that is true or has no entry decides. -/
inductive Scanned (vs : Array Value) : List Literal → Except OutOfRange Bool → Prop
  | found {before after : List Literal} {l : Literal} {v : Value} (passed : ∀ k ∈ before, Passed vs k)
      (entry : vs[l.var.toNat]? = some v) (holds : l.evaluate v.truth = some true) :
      Scanned vs (before ++ l :: after) (.ok true)
  | beyond {before after : List Literal} {l : Literal} (passed : ∀ k ∈ before, Passed vs k)
      (short : vs[l.var.toNat]? = none) : Scanned vs (before ++ l :: after) (.error .list)
  | past {ls : List Literal} (passed : ∀ k ∈ ls, Passed vs k) : Scanned vs ls (.ok false)

/-- The scan as a loop over the values themselves: the unassigned marker is passed over, and any other
value counts as what it is where a condition is asked for. -/
def scan (vs : Array Value) : List Literal → Except OutOfRange Bool
  | [] => .ok false
  | l :: ls =>
    match vs[l.var.toNat]? with
    | none => .error .list
    | some v =>
      if v.isUnassigned then scan vs ls
      else if v.isTrue != l.negated then .ok true else scan vs ls

section
variable {vs : Array Value} {l : Literal} {ls before : List Literal} {r : Except OutOfRange Bool}

/-- A list of values is read at the place of a variable. -/
theorem ofValues_eq {i : Int} (h : 0 ≤ i) : Reading.ofValues vs i =
    match vs[i.toNat]? with
    | some v => .ok v.truth
    | none => .error .list := by
  have hentry : (position? vs.size i).bind (vs[·]?) = vs[i.toNat]? := by
    by_cases hlt : i < vs.size
    · rw [position?_toNat h hlt, Option.bind_some]
    · have hnone : vs[i.toNat]? = none := Array.getElem?_eq_none (by omega)
      rw [position?, if_pos h, if_neg hlt, hnone, Option.bind_none]
  unfold Reading.ofValues
  cases hv : vs[i.toNat]? <;> simp only [hentry, hv]

theorem ofValues_of_entry {v : Value} (h : 0 ≤ l.var) (hv : vs[l.var.toNat]? = some v) :
    Reading.ofValues vs l.var = .ok v.truth := by
  rw [ofValues_eq h, hv]

theorem ofValues_of_short (h : 0 ≤ l.var) (hv : vs[l.var.toNat]? = none) :
    Reading.ofValues vs l.var = .error .list := by
  rw [ofValues_eq h, hv]

theorem anyTrue_cons_of_passed (h : 0 ≤ l.var) (hl : Passed vs l) :
    anyTrue (.ofValues vs) (l :: ls) = anyTrue (.ofValues vs) ls := by
  obtain ⟨v, hv, hne⟩ := hl
  rw [isSatisfied_cons _ l ls (ofValues_of_entry h hv), if_neg hne]

theorem anyTrue_append_of_passed (h : ∀ k ∈ before, 0 ≤ k.var) (hb : ∀ k ∈ before, Passed vs k) :
    anyTrue (.ofValues vs) (before ++ ls) = anyTrue (.ofValues vs) ls := by
  induction before with
  | nil => rfl
  | cons k before ih =>
    rw [List.cons_append, anyTrue_cons_of_passed (h k (by simp)) (hb k (by simp))]
    exact ih (fun k hk => h k (by simp [hk])) fun k hk => hb k (by simp [hk])

/-- What has been passed stands before where the scan of the rest stops. -/
theorem Scanned.cons (hl : Passed vs l) (h : Scanned vs ls r) : Scanned vs (l :: ls) r := by
  cases h with
  | @found before after k v passed entry holds =>
    exact @Scanned.found vs (l :: before) after k v (List.forall_mem_cons.2 ⟨hl, passed⟩) entry holds
  | @beyond before after k passed short =>
    exact @Scanned.beyond vs (l :: before) after k (List.forall_mem_cons.2 ⟨hl, passed⟩) short
  | past passed => exact .past (List.forall_mem_cons.2 ⟨hl, passed⟩)

theorem scanned_anyTrue (h : ∀ l ∈ ls, 0 ≤ l.var) : Scanned vs ls (anyTrue (.ofValues vs) ls) := by
  induction ls with
  | nil => exact .past (by simp)
  | cons l ls ih =>
    have h0 : 0 ≤ l.var := h l (by simp)
    cases hv : vs[l.var.toNat]? with
    | none =>
      rw [anyTrue, ofValues_of_short h0 hv]
      exact @Scanned.beyond vs [] ls l (by simp) hv
    | some v =>
      by_cases hl : l.evaluate v.truth = some true
      · rw [isSatisfied_cons _ l ls (ofValues_of_entry h0 hv), if_pos hl]
        exact @Scanned.found vs [] ls l v (by simp) hv hl
      · have hp : Passed vs l := ⟨v, hv, hl⟩
        rw [anyTrue_cons_of_passed h0 hp]
        exact (ih fun k hk => h k (by simp [hk])).cons hp

/-- **The scan of a clause** stops at the first literal that is true or has no entry. -/
theorem anyTrue_eq_iff (h : ∀ l ∈ ls, 0 ≤ l.var) :
    anyTrue (.ofValues vs) ls = r ↔ Scanned vs ls r := by
  constructor
  · rintro rfl
    exact scanned_anyTrue h
  · intro hs
    cases hs with
    | @found before after l v passed entry holds =>
      rw [anyTrue_append_of_passed (fun k hk => h k (by simp [hk])) passed,
        isSatisfied_cons _ l after (ofValues_of_entry (h l (by simp)) entry), if_pos holds]
    | @beyond before after l passed short =>
      rw [anyTrue_append_of_passed (fun k hk => h k (by simp [hk])) passed, anyTrue,
        ofValues_of_short (h l (by simp)) short]
    | past passed =>
      have hnil : anyTrue (.ofValues vs) (ls ++ []) = _ := anyTrue_append_of_passed h passed
      rwa [List.append_nil] at hnil

/-- Under a value of any kind a literal is true if the value is no marker and counts as what it asks for. -/
theorem evaluate_truth (l : Literal) (v : Value) :
    l.evaluate v.truth = if v.isUnassigned then none else some (v.isTrue != l.negated) := by
  unfold Value.truth
  split <;> rfl

theorem scan_eq (h : ∀ l ∈ ls, 0 ≤ l.var) : scan vs ls = anyTrue (.ofValues vs) ls := by
  induction ls with
  | nil => rfl
  | cons l ls ih =>
    have h0 : 0 ≤ l.var := h l (by simp)
    rw [scan, ih fun k hk => h k (by simp [hk])]
    cases hv : vs[l.var.toNat]? with
    | none => rw [anyTrue, ofValues_of_short h0 hv]
    | some v =>
      rw [isSatisfied_cons _ l ls (ofValues_of_entry h0 hv), evaluate_truth]
      by_cases hu : v.isUnassigned = true
      · simp [hu]
      · simp [hu]

end

/-! ## The verdicts on the clauses -/

/-- Whether each clause is satisfied, in order. -/
def verdicts (look : Reading) : List Clause → Except OutOfRange (List Bool)
  | [] => .ok []
  | c :: cs =>
    match c.isSatisfied look with
    | .error e => .error e
    | .ok b => (verdicts look cs).map (b :: ·)

/-- The positions, from `i` on, at which the verdict is no. -/
def against (i : Nat) : List Bool → List Nat
  | [] => []
  | b :: bs => if b then against (i + 1) bs else i :: against (i + 1) bs

section
variable {i j : Nat} {bs : List Bool}

theorem length_against : (against i bs).length = bs.count false := by
  induction bs generalizing i with
  | nil => rfl
  | cons b bs ih => cases b <;> simp [against, ih]

theorem mem_against : j ∈ against i bs ↔ ∃ k, bs[k]? = some false ∧ j = i + k := by
  induction bs generalizing i with
  | nil => simp [against]
  | cons b bs ih =>
    have hstep : (∃ k, (b :: bs)[k]? = some false ∧ j = i + k) ↔
        (b = false ∧ j = i) ∨ ∃ k, bs[k]? = some false ∧ j = i + 1 + k := by
      constructor
      · rintro ⟨k, hk, rfl⟩
        cases k with
        | zero => exact .inl ⟨by simpa using hk, rfl⟩
        | succ k => exact .inr ⟨k, by simpa using hk, by omega⟩
      · rintro (⟨rfl, rfl⟩ | ⟨k, hk, rfl⟩)
        · exact ⟨0, rfl, rfl⟩
        · exact ⟨k + 1, by simpa using hk, by omega⟩
    rw [hstep, ← ih]
    cases b <;> simp [against]

theorem pairwise_against : (against i bs).Pairwise (· < ·) := by
  induction bs generalizing i with
  | nil => exact .nil
  | cons b bs ih =>
    cases b with
    | true => exact ih
    | false =>
      refine List.pairwise_cons.2 ⟨fun j hj => ?_, ih⟩
      obtain ⟨k, -, rfl⟩ := mem_against.1 hj
      omega

theorem against_succ : against (i + 1) bs = (against i bs).map (· + 1) := by
  induction bs generalizing i with
  | nil => rfl
  | cons b bs ih => cases b <;> simp [against, ih]

end

section
variable {look look' : Reading} {c : Clause} {cs : List Clause} {bs : List Bool} {e : OutOfRange}

theorem countSatisfied_eq_verdicts :
    countSatisfied look cs = (verdicts look cs).map (List.count true) := by
  induction cs with
  | nil => rfl
  | cons c cs ih =>
    rw [countSatisfied, verdicts, ih]
    cases c.isSatisfied look with
    | error e => rfl
    | ok b => cases verdicts look cs <;> cases b <;> simp [Except.map]

theorem unsatisfiedFrom_eq_verdicts {i : Nat} :
    unsatisfiedFrom look i cs = (verdicts look cs).map (against i) := by
  induction cs generalizing i with
  | nil => rfl
  | cons c cs ih =>
    rw [unsatisfiedFrom, verdicts, ih]
    cases c.isSatisfied look with
    | error e => rfl
    | ok b => cases verdicts look cs <;> simp [Except.map, against]

/-- The unsatisfied clauses are those at the positions that are listed as unsatisfied. -/
theorem violated_eq_verdicts :
    violated look cs = (verdicts look cs).map fun bs => (against 0 bs).filterMap (cs[·]?) := by
  induction cs with
  | nil => rfl
  | cons c cs ih =>
    rw [violated, verdicts, ih]
    cases c.isSatisfied look with
    | error e => rfl
    | ok b =>
      cases verdicts look cs <;> cases b <;>
        simp [Except.map, against, against_succ, List.filterMap_map]

theorem verdicts_cons_eq_ok_iff : verdicts look (c :: cs) = .ok bs ↔
    ∃ b bs', c.isSatisfied look = .ok b ∧ verdicts look cs = .ok bs' ∧ b :: bs' = bs := by
  rw [verdicts]
  cases c.isSatisfied look with
  | error e => simp
  | ok b => simp [map_eq_ok_iff]

/-- Each verdict is the one on the clause at its position. -/
theorem getElem?_verdicts (h : verdicts look cs = .ok bs) (i : Nat) (b : Bool) :
    bs[i]? = some b ↔ ∃ c, cs[i]? = some c ∧ c.isSatisfied look = .ok b := by
  induction cs generalizing bs i with
  | nil =>
    cases h
    simp
  | cons c cs ih =>
    obtain ⟨b', bs', hc, hcs, rfl⟩ := verdicts_cons_eq_ok_iff.1 h
    cases i with
    | zero => simp [hc]
    | succ i => simpa using ih hcs i

theorem length_verdicts (h : verdicts look cs = .ok bs) : bs.length = cs.length := by
  induction cs generalizing bs with
  | nil =>
    cases h
    rfl
  | cons c cs ih =>
    obtain ⟨b, bs', -, hcs, rfl⟩ := verdicts_cons_eq_ok_iff.1 h
    rw [List.length_cons, List.length_cons, ih hcs]

/-- There are verdicts exactly if every clause can be evaluated. -/
theorem exists_verdicts_iff :
    (∃ bs, verdicts look cs = .ok bs) ↔ ∀ c ∈ cs, ∃ b, c.isSatisfied look = .ok b := by
  induction cs with
  | nil => simp [verdicts]
  | cons c cs ih =>
    rw [List.forall_mem_cons, ← ih]
    constructor
    · rintro ⟨bs, h⟩
      obtain ⟨b, bs', hc, hcs, -⟩ := verdicts_cons_eq_ok_iff.1 h
      exact ⟨⟨b, hc⟩, bs', hcs⟩
    · rintro ⟨⟨b, hc⟩, bs', hcs⟩
      exact ⟨b :: bs', verdicts_cons_eq_ok_iff.2 ⟨b, bs', hc, hcs, rfl⟩⟩

/-- The early exit does not change the answer yes. -/
theorem allSatisfied_eq_true_iff :
    allSatisfied look cs = .ok true ↔ ∀ c ∈ cs, c.isSatisfied look = .ok true := by
  induction cs with
  | nil => simp [allSatisfied]
  | cons c cs ih =>
    rw [allSatisfied, List.forall_mem_cons, ← ih]
    rcases c.isSatisfied look with e | (_ | _) <;> simp

theorem verdicts_congr (h : ∀ c ∈ cs, c.isSatisfied look = c.isSatisfied look') :
    verdicts look cs = verdicts look' cs := by
  induction cs with
  | nil => rfl
  | cons c cs ih => rw [verdicts, verdicts, h c (by simp), ih fun d hd => h d (by simp [hd])]

theorem allSatisfied_congr (h : ∀ c ∈ cs, c.isSatisfied look = c.isSatisfied look') :
    allSatisfied look cs = allSatisfied look' cs := by
  induction cs with
  | nil => rfl
  | cons c cs ih => rw [allSatisfied, allSatisfied, h c (by simp), ih fun d hd => h d (by simp [hd])]

end

/-! ## The evaluators of a formula -/

section
variable {f : Formula} {look look' : Reading}

theorem satisfiedCount_eq_verdicts :
    f.satisfiedCount look = (verdicts look f.clauses).map (List.count true) :=
  countSatisfied_eq_verdicts

theorem unsatisfiedCount_eq_verdicts :
    f.unsatisfiedCount look = (verdicts look f.clauses).map (List.count false) := by
  rw [Formula.unsatisfiedCount, satisfiedCount_eq_verdicts]
  cases h : verdicts look f.clauses with
  | error e => rfl
  | ok bs =>
    have hlen := length_verdicts h
    have hcount := List.count_true_add_count_false bs
    simp only [Except.map, Formula.size]
    congr 1
    omega

theorem unsatisfiedClauses_eq_verdicts :
    f.unsatisfiedClauses look = (verdicts look f.clauses).map (against 0) :=
  unsatisfiedFrom_eq_verdicts

theorem candidates_eq_verdicts : f.candidates look = (verdicts look f.clauses).map fun bs =>
    firstOccurrences [] (((against 0 bs).filterMap (f.clauses[·]?)).flatMap Clause.vars) := by
  rw [Formula.candidates, violated_eq_verdicts]
  cases verdicts look f.clauses <;> rfl

/-- The evaluators that go through all clauses fail exactly if some clause cannot be evaluated. -/
theorem satisfiedCount_fails_iff : (∃ e, f.satisfiedCount look = .error e) ↔
    ∃ c ∈ f.clauses, ∃ e, c.isSatisfied look = .error e := by
  have hexists := not_congr (@exists_verdicts_iff look f.clauses)
  rw [satisfiedCount_eq_verdicts]
  simp only [map_eq_error_iff]
  cases h : verdicts look f.clauses with
  | error e =>
    simp only [h, reduceCtorEq, exists_false, not_false_eq_true, true_iff, not_forall, not_exists] at hexists
    obtain ⟨c, hc, hne⟩ := hexists
    refine iff_of_true ⟨e, rfl⟩ ⟨c, hc, ?_⟩
    cases hcs : c.isSatisfied look with
    | error e' => exact ⟨e', rfl⟩
    | ok b => exact absurd hcs (hne b)
  | ok bs =>
    refine iff_of_false (by simp) ?_
    rintro ⟨c, hc, e, he⟩
    obtain ⟨b, hb⟩ := exists_verdicts_iff.1 ⟨bs, h⟩ c hc
    rw [he] at hb
    cases hb

theorem satisfiedCount_add_unsatisfiedCount {n k : Nat} (hn : f.satisfiedCount look = .ok n)
    (hk : f.unsatisfiedCount look = .ok k) : n + k = f.size := by
  rw [satisfiedCount_eq_verdicts, map_eq_ok_iff] at hn
  rw [unsatisfiedCount_eq_verdicts, map_eq_ok_iff] at hk
  obtain ⟨bs, hbs, rfl⟩ := hn
  obtain ⟨bs', hbs', rfl⟩ := hk
  rw [hbs] at hbs'
  cases hbs'
  exact (List.count_true_add_count_false bs).trans (length_verdicts hbs)

theorem unsatisfiedCount_eq_length {k : Nat} {is : List Nat} (hk : f.unsatisfiedCount look = .ok k)
    (hi : f.unsatisfiedClauses look = .ok is) : k = is.length := by
  rw [unsatisfiedCount_eq_verdicts, map_eq_ok_iff] at hk
  rw [unsatisfiedClauses_eq_verdicts, map_eq_ok_iff] at hi
  obtain ⟨bs, hbs, rfl⟩ := hk
  obtain ⟨bs', hbs', rfl⟩ := hi
  rw [hbs] at hbs'
  cases hbs'
  exact length_against.symm

theorem pairwise_unsatisfiedClauses {is : List Nat} (hi : f.unsatisfiedClauses look = .ok is) :
    is.Pairwise (· < ·) := by
  rw [unsatisfiedClauses_eq_verdicts, map_eq_ok_iff] at hi
  obtain ⟨bs, -, rfl⟩ := hi
  exact pairwise_against

theorem mem_unsatisfiedClauses {is : List Nat} (hi : f.unsatisfiedClauses look = .ok is) (i : Nat) :
    i ∈ is ↔ ∃ c, f.clauses[i]? = some c ∧ c.isSatisfied look = .ok false := by
  rw [unsatisfiedClauses_eq_verdicts, map_eq_ok_iff] at hi
  obtain ⟨bs, hbs, rfl⟩ := hi
  rw [mem_against, ← getElem?_verdicts hbs]
  simp

/-- Each unsatisfied clause has a variable, so there are candidates just when there is such a clause. -/
theorem candidates_eq_nil_iff {k : Nat} {vars : List Int} (hk : f.unsatisfiedCount look = .ok k)
    (hv : f.candidates look = .ok vars) : vars = [] ↔ k = 0 := by
  rw [candidates_eq_verdicts, map_eq_ok_iff] at hv
  obtain ⟨bs, hbs, rfl⟩ := hv
  have hi : f.unsatisfiedClauses look = .ok (against 0 bs) := by
    rw [unsatisfiedClauses_eq_verdicts, hbs]
    rfl
  rw [unsatisfiedCount_eq_length hk hi, List.length_eq_zero_iff]
  constructor
  · intro hnil
    refine List.eq_nil_iff_forall_not_mem.2 fun i hmem => ?_
    obtain ⟨c, hc, -⟩ := (mem_unsatisfiedClauses hi i).1 hmem
    obtain ⟨l, hl⟩ := List.exists_mem_of_ne_nil _ c.nonempty
    have hin : l.var ∈ firstOccurrences []
        (((against 0 bs).filterMap (f.clauses[·]?)).flatMap Clause.vars) := by
      refine mem_firstOccurrences.2 ⟨List.mem_flatMap.2 ⟨c, ?_, List.mem_map_of_mem hl⟩, by simp⟩
      exact List.mem_filterMap.2 ⟨i, hmem, hc⟩
    rw [hnil] at hin
    cases hin
  · intro hnil
    rw [hnil]
    rfl

/-- The early exit does not change when all clauses are satisfied. -/
theorem isSatisfied_iff_unsatisfiedCount :
    f.isSatisfied look = .ok true ↔ f.unsatisfiedCount look = .ok 0 := by
  rw [Formula.isSatisfied, allSatisfied_eq_true_iff, unsatisfiedCount_eq_verdicts, map_eq_ok_iff]
  constructor
  · intro hall
    obtain ⟨bs, hbs⟩ := exists_verdicts_iff.2 fun c hc => ⟨true, hall c hc⟩
    refine ⟨bs, hbs, List.count_eq_zero.2 fun hmem => ?_⟩
    obtain ⟨i, hi⟩ := List.mem_iff_getElem?.1 hmem
    obtain ⟨c, hc, hf⟩ := (getElem?_verdicts hbs i false).1 hi
    rw [hall c (List.mem_of_getElem? hc)] at hf
    cases hf
  · rintro ⟨bs, hbs, hzero⟩ c hc
    obtain ⟨b, hb⟩ := exists_verdicts_iff.1 ⟨bs, hbs⟩ c hc
    obtain ⟨i, hi⟩ := List.mem_iff_getElem?.1 hc
    have hmem := List.mem_of_getElem? ((getElem?_verdicts hbs i b).2 ⟨c, hi, hb⟩)
    cases b with
    | true => exact hb
    | false => exact absurd hmem (List.count_eq_zero.1 hzero)

/-- What holds among the evaluators that go through a formula. -/
structure Concordant (f : Formula) (look : Reading) : Prop where
  /-- The four that count or list clauses fail together, when some clause cannot be evaluated. -/
  fails_iff : (∃ e, f.satisfiedCount look = .error e) ↔
    ∃ c ∈ f.clauses, ∃ e, c.isSatisfied look = .error e
  fails : ∀ e, (f.unsatisfiedCount look = .error e ↔ f.satisfiedCount look = .error e) ∧
    (f.unsatisfiedClauses look = .error e ↔ f.satisfiedCount look = .error e) ∧
    (f.candidates look = .error e ↔ f.satisfiedCount look = .error e)
  sum : ∀ n k, f.satisfiedCount look = .ok n → f.unsatisfiedCount look = .ok k → n + k = f.size
  length : ∀ k is, f.unsatisfiedCount look = .ok k → f.unsatisfiedClauses look = .ok is → k = is.length
  increasing : ∀ is, f.unsatisfiedClauses look = .ok is → is.Pairwise (· < ·)
  lists : ∀ is, f.unsatisfiedClauses look = .ok is →
    ∀ i, i ∈ is ↔ ∃ c, f.clauses[i]? = some c ∧ c.isSatisfied look = .ok false
  empty_iff : ∀ k vars, f.unsatisfiedCount look = .ok k → f.candidates look = .ok vars →
    (vars = [] ↔ k = 0)
  /-- The one with an early exit answers yes just when the count finds nothing unsatisfied. -/
  all_iff : f.isSatisfied look = .ok true ↔ f.unsatisfiedCount look = .ok 0

theorem concordant (f : Formula) (look : Reading) : Concordant f look where
  fails_iff := satisfiedCount_fails_iff
  fails e := by
    rw [satisfiedCount_eq_verdicts, unsatisfiedCount_eq_verdicts, unsatisfiedClauses_eq_verdicts,
      candidates_eq_verdicts]
    simp only [map_eq_error_iff, and_self]
  sum _ _ := satisfiedCount_add_unsatisfiedCount
  length _ _ := unsatisfiedCount_eq_length
  increasing _ := pairwise_unsatisfiedClauses
  lists _ := mem_unsatisfiedClauses
  empty_iff _ _ := candidates_eq_nil_iff
  all_iff := isSatisfied_iff_unsatisfiedCount

end

/-! ## Lists in other forms -/

/-- What the evaluators answer for a formula. -/
structure Answers where
  clauses : List (Except OutOfRange Bool)
  formula : Except OutOfRange Bool
  satisfiedCount : Except OutOfRange Nat
  unsatisfiedCount : Except OutOfRange Nat
  unsatisfiedClauses : Except OutOfRange (List Nat)
  candidates : Except OutOfRange (List Int)

def Formula.answers (f : Formula) (look : Reading) : Answers where
  clauses := f.clauses.map (·.isSatisfied look)
  formula := f.isSatisfied look
  satisfiedCount := f.satisfiedCount look
  unsatisfiedCount := f.unsatisfiedCount look
  unsatisfiedClauses := f.unsatisfiedClauses look
  candidates := f.candidates look

/-- The number that stands for a value in an assignment. -/
def Value.mark (v : Value) : Int :=
  if v.isUnassigned then -1 else if v.isTrue then 1 else 0

theorem integer_truth (v : Value) : Assignment.integer v.truth = v.mark := by
  unfold Value.truth Value.mark
  cases v.isUnassigned <;> cases v.isTrue <;> rfl

/-- A value counts like the number that stands for it. -/
theorem truth_mark (v : Value) : (Value.int v.mark).truth = v.truth := by
  unfold Value.truth Value.mark
  cases v.isUnassigned <;> cases v.isTrue <;> rfl

/-- A value counts like its truth value, or like nothing if it is the unassigned marker. -/
theorem truth_ofOption (v : Value) : (Value.ofOption Value.bool v.truth).truth = v.truth := by
  rcases v.truth with _ | _ | _ <;> rfl

/-- The other forms of a list of values: an assignment, the numbers in it, and its truth values. -/
inductive Represents (vs : Array Value) : Reading → Prop
  | assignment : Represents vs (Assignment.ofValues vs.toList).look
  | numbers : Represents vs (.ofValues (vs.map fun v => .int v.mark))
  | truths : Represents vs (.ofValues (vs.map fun v => .ofOption .bool v.truth))

section
variable {f : Formula} {vs : Array Value} {look look' : Reading}

/-- Values that count alike are read alike. -/
theorem ofValues_map {g : Value → Value} (hg : ∀ v, (g v).truth = v.truth) {i : Int} (h : 0 ≤ i) :
    Reading.ofValues (vs.map g) i = Reading.ofValues vs i := by
  rw [ofValues_eq h, ofValues_eq h, Array.getElem?_map]
  cases vs[i.toNat]? with
  | none => rfl
  | some v => simp [hg]

theorem Represents.look_eq (h : Represents vs look) {i : Int} (h0 : 0 ≤ i) (hlt : i < vs.size) :
    look i = Reading.ofValues vs i := by
  cases h with
  | assignment =>
    have hv : vs[i.toNat]? = some vs[i.toNat] := Array.getElem?_eq_getElem (by omega)
    have hsize : i < (Assignment.ofValues vs.toList).size := by simpa [Assignment.ofValues, Assignment.size]
    rw [ofValues_eq h0, hv, Assignment.look_eq_ok_iff]
    exact ⟨i.toNat, position?_toNat h0 hsize, by simp [Assignment.ofValues, hv]⟩
  | numbers => exact ofValues_map truth_mark h0
  | truths => exact ofValues_map truth_ofOption h0

/-- The evaluators depend on no more than whether each clause is satisfied. -/
theorem answers_congr (h : ∀ c ∈ f.clauses, c.isSatisfied look = c.isSatisfied look') :
    f.answers look = f.answers look' := by
  have hv : verdicts look f.clauses = verdicts look' f.clauses := verdicts_congr h
  have ha : f.isSatisfied look = f.isSatisfied look' := allSatisfied_congr h
  simp only [Formula.answers, satisfiedCount_eq_verdicts, unsatisfiedCount_eq_verdicts,
    unsatisfiedClauses_eq_verdicts, candidates_eq_verdicts, hv, ha, List.map_congr_left h]

theorem answers_of_represents (hsize : f.numVariables ≤ vs.size) (h : Represents vs look) :
    f.answers look = f.answers (.ofValues vs) := by
  refine answers_congr fun c hc => anyTrue_congr fun l hl => ?_
  obtain ⟨h0, hlt⟩ := f.inRange c hc l hl
  exact h.look_eq h0 (by omega)

theorem reads_ofValues_of_le (hsize : f.numVariables ≤ vs.size) :
    Reading.Reads (.ofValues vs) (fun i => vs[i.toNat]?.bind Value.truth) f := by
  intro c hc l hl
  obtain ⟨h0, hlt⟩ := f.inRange c hc l hl
  have hv : vs[l.var.toNat]? = some vs[l.var.toNat] := Array.getElem?_eq_getElem (by omega)
  simp only [ofValues_of_entry h0 hv, hv, Option.bind_some]

end

/-- **The evaluators agree**, over values of any kind. A clause is satisfied as the scan of its literals
tells, which is also what a loop over the values finds; over any list or assignment, too short or not, the
evaluators of the formula are in accord; and a list with an entry for each variable gets an answer from
each of them, the same as an assignment built from it, the numbers in that, or its truth values. -/
theorem evaluators_agree (f : Formula) (vs : Array Value) :
    (∀ c ∈ f.clauses, ∀ r, (c.isSatisfied (.ofValues vs) = r ↔ Scanned vs c.literals r) ∧
      (scan vs c.literals = r ↔ Scanned vs c.literals r)) ∧
    (∀ look, Concordant f look) ∧
    (f.numVariables ≤ vs.size → (∃ n, f.satisfiedCount (.ofValues vs) = .ok n) ∧
      ∀ look, Represents vs look → f.answers look = f.answers (.ofValues vs)) ∧
    (Assignment.ofValues vs.toList).values.toList.map Assignment.integer = vs.toList.map Value.mark := by
  refine ⟨fun c hc r => ?_, concordant f, fun hsize => ?_, ?_⟩
  · have hvar : ∀ l ∈ c.literals, 0 ≤ l.var := fun l hl => (f.inRange c hc l hl).1
    rw [scan_eq hvar]
    exact ⟨anyTrue_eq_iff hvar, anyTrue_eq_iff hvar⟩
  · exact ⟨⟨_, satisfiedCount_eq (reads_ofValues_of_le hsize)⟩, fun _ => answers_of_represents hsize⟩
  · simp [Assignment.ofValues, integer_truth]

/-- Of `x₀` and `¬x₁` the first is unsatisfied by an empty text, where the early exit stops; the count goes
on to the second, for which there is no entry. -/
example :
    let f : Formula := ⟨2, [⟨[⟨0, false⟩], by decide⟩, ⟨[⟨1, true⟩], by decide⟩], [], by decide⟩
    f.isSatisfied (.ofValues #[.text ""]) = .ok false ∧
      f.unsatisfiedCount (.ofValues #[.text ""]) = .error .list := by
  exact ⟨by rfl, by rfl⟩

end LocalSat
