import LocalSat.Proofs.Greedy.Neighbour

/-!
# What can repair a formula

The candidates are the variables of the unsatisfied clauses, in order and each once (`candidates_eq`).
Only they can repair one of these clauses: a move of any other variable leaves what the clauses are
evaluated on as it was (`isSatisfied_apply_of_not_mem`). And each of them can repair every unsatisfied
clause that it occurs in, by one of its flips (`mends_of_mem`). Main statement: `candidates_repair`.
-/

namespace LocalSat

/-! ## The candidates -/

section
variable {f : Formula} {a b : Assignment} {c : Clause} {i : Int} {m : Move}

theorem isSatisfied_eq_false_iff (ha : a.size = f.numVariables) (hc : c ∈ f.clauses) :
    c.isSatisfied a.look = .ok false ↔ ¬ c.Holds (valuation a.values) := by
  rw [clause_isSatisfied_eq (reads_look ha c hc)]
  simp

theorem isSatisfied_eq_true_of_holds (ha : a.size = f.numVariables) (hc : c ∈ f.clauses)
    (h : c.Holds (valuation a.values)) : c.isSatisfied a.look = .ok true := by
  rw [clause_isSatisfied_eq (reads_look ha c hc)]
  simp [h]

theorem candidates_eq (ha : a.size = f.numVariables) :
    f.candidates a.look = .ok ((f.clauses.filter fun c => c.isSatisfied a.look = .ok false).flatMap
      Clause.vars).eraseDups := by
  have hfilter : f.clauses.filter (fun c => c.isSatisfied a.look = .ok false) =
      f.falsified (valuation a.values) := by
    refine List.filter_congr fun c hc => ?_
    simp only [isSatisfied_eq_false_iff ha hc, decide_not]
  rw [hfilter, Formula.candidates_falsified ha, firstOccurrences_eq]
  simp

/-! ## Moves of other variables -/

/-- A move of a variable that does not occur in a clause leaves the clause as it is. -/
theorem isSatisfied_apply_of_not_mem {p : Nat} (ha : a.size = f.numVariables) (hc : c ∈ f.clauses)
    (hb : a.apply m = .ok b) (hp : position? a.size m.var = some p) (hi : (p : Int) ∉ c.vars) :
    c.isSatisfied b.look = c.isSatisfied a.look := by
  refine anyTrue_congr fun l hl => ?_
  obtain ⟨h0, hlt⟩ := f.inRange c hc l hl
  have hl' : position? a.size l.var = some l.var.toNat := position?_toNat h0 (by rw [ha]; exact hlt)
  have hne : l.var.toNat ≠ p := by
    rintro rfl
    rw [Int.toNat_of_nonneg h0] at hi
    exact hi (List.mem_map_of_mem hl)
  rw [Assignment.look_apply hb, if_neg (by simpa [hl', hp] using hne)]

/-! ## Flips of the variables of a clause -/

/-- The flips of a variable of a clause all change its value; one of them satisfies the clause, and if the
variable is assigned there is only that one. -/
structure Mends (a : Assignment) (c : Clause) (i : Int) (ms : List Move) : Prop where
  flips : a.flips i = .ok ms
  changes : ∀ m ∈ ms, m.var = i ∧ ∃ b, a.apply m = .ok b ∧ b.look i ≠ a.look i
  satisfies : ∃ m ∈ ms, ∃ b, a.apply m = .ok b ∧ c.isSatisfied b.look = .ok true
  single : ∀ x, a.look i = .ok (some x) →
    ∃ m b, ms = [m] ∧ a.apply m = .ok b ∧ c.isSatisfied b.look = .ok true

open Assignment in
theorem mends_of_mem (ha : a.size = f.numVariables) (hc : c ∈ f.clauses)
    (hu : c.isSatisfied a.look = .ok false) (hi : i ∈ c.vars) : ∃ ms, Mends a c i ms := by
  rw [isSatisfied_eq_false_iff ha hc] at hu
  obtain ⟨l, hl, rfl⟩ := List.mem_map.1 hi
  obtain ⟨h0, hlt⟩ := f.inRange c hc l hl
  rw [← ha] at hlt
  obtain ⟨ms, hms, hmem⟩ := flips_eq h0 hlt
  have happly : ∀ x, ∃ b, a.apply (assigning l.var x) = .ok b ∧ b.look l.var = .ok (some x) := by
    intro x
    obtain ⟨b, hb⟩ := exists_apply_iff.2 (show (assigning l.var x).InRange a.size from
      ⟨by simp only [assigning]; omega, hlt⟩)
    refine ⟨b, hb, ?_⟩
    rw [look_apply hb, truth_assigning]
    exact if_pos rfl
  -- what the literal asks for is what its variable does not hold
  have hne : valuation a.values l.var ≠ some (!l.negated) := fun e => hu ⟨l, hl, e⟩
  have hwanted : assigning l.var (!l.negated) ∈ ms := (hmem _).2 ⟨_, hne, rfl⟩
  have hsat : ∃ b, a.apply (assigning l.var (!l.negated)) = .ok b ∧
      c.isSatisfied b.look = .ok true := by
    obtain ⟨b, hb, hlook⟩ := happly (!l.negated)
    have hsize := (size_apply hb).trans ha
    refine ⟨b, hb, isSatisfied_eq_true_of_holds hsize hc ⟨l, hl, ?_⟩⟩
    rw [reads_look hsize c hc l hl] at hlook
    exact Except.ok.inj hlook
  refine ⟨ms, ?_⟩
  exact
  { flips := hms
    changes := by
      intro m hm
      obtain ⟨x, hx, rfl⟩ := (hmem m).1 hm
      obtain ⟨b, hb, hlook⟩ := happly x
      refine ⟨rfl, b, hb, ?_⟩
      rw [hlook, look_eq h0 hlt]
      exact fun e => hx (Except.ok.inj e).symm
    satisfies := ⟨_, hwanted, hsat⟩
    single := by
      intro x hx
      have hone : ms = [⟨l.var, .int (if x then 0 else 1)⟩] := by
        simp only [Assignment.flips, hx, Except.ok.injEq] at hms
        exact hms.symm
      obtain ⟨b, hb, hs⟩ := hsat
      rw [hone, List.mem_singleton] at hwanted
      exact ⟨_, b, hone, hwanted ▸ hb, hs⟩ }

/-- **The neighbourhood is what can repair.** The candidates are the variables of the unsatisfied clauses
in the order of formula and literals, later duplicates erased. A move of any other variable, named from
either end and to any value, satisfies none of these clauses; and the flips of each variable of such a
clause change it and mend the clause. -/
theorem candidates_repair (ha : a.size = f.numVariables) :
    ∃ is, f.candidates a.look = .ok is ∧
      is = ((f.clauses.filter fun c => c.isSatisfied a.look = .ok false).flatMap Clause.vars).eraseDups ∧
      (∀ m b p, a.apply m = .ok b → position? a.size m.var = some p → (p : Int) ∉ is →
        ∀ c ∈ f.clauses, c.isSatisfied a.look = .ok false → c.isSatisfied b.look = .ok false) ∧
      ∀ c ∈ f.clauses, c.isSatisfied a.look = .ok false → ∀ i ∈ c.vars, ∃ ms, Mends a c i ms := by
  refine ⟨_, candidates_eq ha, rfl, fun m b p hb hp hout c hc hu => ?_, fun c hc hu i hi =>
    mends_of_mem ha hc hu hi⟩
  have hi : (p : Int) ∉ c.vars := fun hi => hout <| List.mem_eraseDups.2 <|
    List.mem_flatMap.2 ⟨c, List.mem_filter.2 ⟨hc, by simpa using hu⟩, hi⟩
  rw [isSatisfied_apply_of_not_mem ha hc hb hp hi, hu]

end

/-- At `x₀` unassigned and `x₁` false, of three clauses the first is unsatisfied by a variable and its
negation, the second by both variables, and the third is satisfied. -/
theorem candidates_repair_tristate :
    let f : Formula := ⟨2, [⟨[⟨0, false⟩, ⟨0, true⟩], by decide⟩, ⟨[⟨1, false⟩, ⟨0, false⟩], by decide⟩,
      ⟨[⟨1, true⟩], by decide⟩], [], by decide⟩
    let a : Assignment := ⟨#[none, some false], []⟩
    f.candidates a.look = .ok [0, 1] ∧ ∃ ms, Mends a ⟨[⟨0, false⟩, ⟨0, true⟩], by decide⟩ 0 ms := by
  intro f a
  obtain ⟨is, his, -, -, hmends⟩ := candidates_repair (f := f) (a := a) rfl
  exact ⟨by rfl, hmends _ (by simp [f]) (by rfl) 0 (by simp [Clause.vars])⟩

end LocalSat
