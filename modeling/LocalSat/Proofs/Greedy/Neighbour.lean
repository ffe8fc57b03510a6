import Mathlib.Data.Finset.Card
import Mathlib.Data.Finset.Range
import Mathlib.Logic.Relation
import LocalSat.Proofs.Trail
import LocalSat.Search.Greedy

/-!
# The neighbourhood of the greedy search

The candidate moves are exactly those that give a variable of an untrue clause a truth value that it does
not hold (`candidateMoves_eq`); the values they lead to are the neighbours. Moving to a neighbour changes
no variable that occurs in no clause and gives none an entry but a truth value (`Neighbour.frame`,
`Neighbour.within`). Main statement: a set of falsified values that contains the neighbours of its members
excludes every model (`not_satisfiable_of_closed`), because some neighbour of a falsified state is one
variable nearer to any given model.
-/

namespace LocalSat

/-- Keeping first occurrences, apart from what has been seen, is erasing later duplicates. -/
theorem firstOccurrences_eq (seen l : List Int) :
    firstOccurrences seen l = (l.filter (· ∉ seen)).eraseDups := by
  induction l generalizing seen with
  | nil => rfl
  | cons v vs ih =>
    unfold firstOccurrences
    by_cases hv : v ∈ seen
    · rw [if_pos (by simpa using hv), ih, List.filter_cons_of_neg (by simpa using hv)]
    · rw [if_neg (by simpa using hv), ih, List.filter_cons_of_pos (by simpa using hv),
        List.eraseDups_cons, List.filter_filter]
      congr 3
      funext w
      by_cases hw : w = v <;> simp [hw]

theorem mem_firstOccurrences {x : Int} {l seen : List Int} :
    x ∈ firstOccurrences seen l ↔ x ∈ l ∧ x ∉ seen := by
  rw [firstOccurrences_eq, List.mem_eraseDups, List.mem_filter, decide_eq_true_iff]

/-- The variables that occur in the clauses of a formula. -/
def Formula.vars (f : Formula) : Finset Int := (f.clauses.flatMap Clause.vars).toFinset

theorem Formula.mem_vars {f : Formula} {i : Int} :
    i ∈ f.vars ↔ ∃ c ∈ f.clauses, ∃ l ∈ c.literals, l.var = i := by
  simp [Formula.vars, Clause.vars]

/-- The candidates are the variables of the untrue clauses, each where it first occurs. -/
theorem Formula.candidates_falsified {f : Formula} {a : Assignment} (h : a.size = f.numVariables) :
    f.candidates a.look =
      .ok (firstOccurrences [] ((f.falsified (valuation a.values)).flatMap Clause.vars)) := by
  rw [Formula.candidates, violated_eq (reads_look h)]
  rfl

theorem Formula.vars_inRange {f : Formula} {i : Int} (h : i ∈ f.vars) : 0 ≤ i ∧ i < f.numVariables := by
  obtain ⟨c, hc, l, hl, rfl⟩ := Formula.mem_vars.1 h
  exact f.inRange c hc l hl

namespace Search.Greedy

open Assignment

/-! ## Candidate moves -/

/-- The move gives a variable of an untrue clause a truth value that it does not hold. -/
def Repairs (f : Formula) (vs : Values) (m : Move) : Prop :=
  ∃ c ∈ f.clauses, ¬ c.Holds (valuation vs) ∧ ∃ l ∈ c.literals, ∃ b,
    valuation vs l.var ≠ some b ∧ m = assigning l.var b

theorem Repairs.var_mem {f : Formula} {vs : Values} {m : Move} (h : Repairs f vs m) : m.var ∈ f.vars := by
  obtain ⟨c, hc, -, l, hl, b, -, rfl⟩ := h
  exact Formula.mem_vars.2 ⟨c, hc, l, hl, rfl⟩

theorem Repairs.truth {f : Formula} {vs : Values} {m : Move} (h : Repairs f vs m) :
    ∃ b, m.value.truth = some b ∧ valuation vs m.var ≠ some b := by
  obtain ⟨c, -, -, l, -, b, hb, rfl⟩ := h
  exact ⟨b, truth_assigning l.var b, hb⟩

theorem flipsOf_eq {a : Assignment} : ∀ {is : List Int}, (∀ i ∈ is, 0 ≤ i ∧ i < a.size) →
    ∃ ms, flipsOf a is = .ok ms ∧
      ∀ m, m ∈ ms ↔ ∃ i ∈ is, ∃ b, valuation a.values i ≠ some b ∧ m = assigning i b
  | [], _ => ⟨[], rfl, fun m => by simp⟩
  | i :: is, h => by
    obtain ⟨h0, hlt⟩ := h i List.mem_cons_self
    obtain ⟨ms, hms, hmem⟩ := flips_eq h0 hlt
    obtain ⟨rest, hrest, hmem'⟩ := flipsOf_eq fun j hj => h j (List.mem_cons_of_mem i hj)
    refine ⟨ms ++ rest, by rw [flipsOf, hms, hrest]; rfl, fun m => ?_⟩
    rw [List.mem_append, hmem, hmem']
    simp only [List.mem_cons, exists_eq_or_imp]

/-- **The candidate moves** are those that repair. -/
theorem candidateMoves_eq {f : Formula} {a : Assignment} (h : a.size = f.numVariables) :
    ∃ ms, candidateMoves f a = .ok ms ∧ ∀ m, m ∈ ms ↔ Repairs f a.values m := by
  have hmem : ∀ i, i ∈ firstOccurrences [] ((f.falsified (valuation a.values)).flatMap Clause.vars) ↔
      ∃ c ∈ f.clauses, ¬ c.Holds (valuation a.values) ∧ ∃ l ∈ c.literals, l.var = i := by
    intro i
    simp only [mem_firstOccurrences, List.mem_flatMap, mem_falsified, Clause.vars, List.mem_map,
      List.not_mem_nil, not_false_eq_true, and_true, and_assoc]
  have hrange : ∀ i ∈ firstOccurrences [] ((f.falsified (valuation a.values)).flatMap Clause.vars),
      0 ≤ i ∧ i < a.size := by
    intro i hi
    obtain ⟨c, hc, -, l, hl, rfl⟩ := (hmem i).1 hi
    rw [h]
    exact f.inRange c hc l hl
  obtain ⟨ms, hms, hms'⟩ := flipsOf_eq hrange
  refine ⟨ms, by rw [candidateMoves, Formula.candidates_falsified h]; exact hms, fun m => ?_⟩
  rw [hms']
  constructor
  · rintro ⟨i, hi, b, hb, rfl⟩
    obtain ⟨c, hc, hf, l, hl, rfl⟩ := (hmem i).1 hi
    exact ⟨c, hc, hf, l, hl, b, hb, rfl⟩
  · rintro ⟨c, hc, hf, l, hl, b, hb, rfl⟩
    exact ⟨l.var, (hmem l.var).2 ⟨c, hc, hf, l, hl, rfl⟩, b, hb, rfl⟩

/-! ## Neighbours -/

/-- The values that a candidate move leads to. -/
def Neighbour (f : Formula) (u v : Values) : Prop :=
  ∃ ms m b, candidateMoves f ⟨u, []⟩ = .ok ms ∧ m ∈ ms ∧ (⟨u, []⟩ : Assignment).apply m = .ok b ∧
    v = b.values

section
variable {f : Formula} {u v : Values}

theorem neighbour_iff (h : u.size = f.numVariables) :
    Neighbour f u v ↔ ∃ m, Repairs f u m ∧ v = u.setIfInBounds m.var.toNat m.value.truth := by
  have ha : (⟨u, []⟩ : Assignment).size = f.numVariables := h
  obtain ⟨ms, hms, hmem⟩ := candidateMoves_eq ha
  have happly : ∀ m, Repairs f u m → (⟨u, []⟩ : Assignment).apply m =
      .ok ⟨u.setIfInBounds m.var.toNat m.value.truth, [⟨m.var, valuation u m.var⟩]⟩ := by
    intro m hm
    obtain ⟨h0, hlt⟩ := Formula.vars_inRange hm.var_mem
    exact apply_eq h0 (by rw [ha]; exact hlt)
  constructor
  · rintro ⟨ms', m, b, hms', hm, hb, rfl⟩
    rw [hms] at hms'
    cases hms'
    have hr := (hmem m).1 hm
    rw [happly m hr] at hb
    cases hb
    exact ⟨m, hr, rfl⟩
  · rintro ⟨m, hm, rfl⟩
    exact ⟨ms, m, _, hms, (hmem m).2 hm, happly m hm, rfl⟩

/-- Making a literal of an untrue clause true leads to a neighbour. -/
theorem neighbour_of_untrue {c : Clause} {l : Literal} (hu : u.size = f.numVariables)
    (hc : c ∈ f.clauses) (hcf : ¬ c.Holds (valuation u)) (hl : l ∈ c.literals) :
    Neighbour f u (u.setIfInBounds l.var.toNat (some (!l.negated))) := by
  have hne : valuation u l.var ≠ some (!l.negated) := fun e => hcf ⟨l, hl, e⟩
  refine (neighbour_iff hu).2 ⟨assigning l.var (!l.negated), ⟨c, hc, hcf, l, hl, _, hne, rfl⟩, ?_⟩
  rw [truth_assigning]
  rfl

theorem exists_neighbour (hu : u.size = f.numVariables) (hf : ¬ f.Holds (valuation u)) :
    ∃ v, Neighbour f u v := by
  obtain ⟨c, hc, hcf⟩ := exists_falsified hf
  obtain ⟨l, hl⟩ := List.exists_mem_of_ne_nil c.literals c.nonempty
  exact ⟨_, neighbour_of_untrue hu hc hcf hl⟩

theorem Neighbour.size (h : Neighbour f u v) (hu : u.size = f.numVariables) : v.size = f.numVariables := by
  obtain ⟨m, -, rfl⟩ := (neighbour_iff hu).1 h
  simpa using hu

/-- A variable that occurs in no clause keeps its value. -/
theorem Neighbour.frame (h : Neighbour f u v) (hu : u.size = f.numVariables) {i : Int} (h0 : 0 ≤ i)
    (hi : i ∉ f.vars) : valuation v i = valuation u i := by
  obtain ⟨m, hm, rfl⟩ := (neighbour_iff hu).1 h
  obtain ⟨hm0, hlt⟩ := Formula.vars_inRange hm.var_mem
  have hne : i ≠ m.var := fun e => hi (e ▸ hm.var_mem)
  rw [valuation_set hm0 (by rw [hu]; exact hlt) h0, if_neg hne]

/-- What the variables hold stays among the given entries, if these include both truth values. -/
theorem Neighbour.within {entries : Finset (Option Bool)} (h : Neighbour f u v)
    (hu : u.size = f.numVariables) (hb : ∀ b : Bool, some b ∈ entries) (hin : ∀ x ∈ u, x ∈ entries) :
    ∀ x ∈ v, x ∈ entries := by
  obtain ⟨m, hm, rfl⟩ := (neighbour_iff hu).1 h
  obtain ⟨b, hmb, -⟩ := hm.truth
  intro x hx
  rw [hmb] at hx
  rcases Array.mem_or_eq_of_mem_setIfInBounds hx with hx | rfl
  · exact hin x hx
  · exact hb b

/-- No values are their own neighbour. -/
theorem Neighbour.ne (h : Neighbour f u v) (hu : u.size = f.numVariables) : v ≠ u := by
  obtain ⟨m, hm, rfl⟩ := (neighbour_iff hu).1 h
  obtain ⟨h0, hlt⟩ := Formula.vars_inRange hm.var_mem
  obtain ⟨b, hb, hne⟩ := hm.truth
  intro he
  apply hne
  rw [← he, valuation_set h0 (by rw [hu]; exact hlt) h0, if_pos rfl, hb]

end

/-! ## Distance to a model -/

/-- Number of variables that do not hold what the model gives them. -/
def distance (bs : List Bool) (vs : Values) : Nat :=
  ((Finset.range vs.size).filter fun j => vs.getD j none ≠ bs[j]?).card

/-- A falsified state has a neighbour that is nearer to any given model. -/
theorem exists_nearer_neighbour {f : Formula} {bs : List Bool} {u : Values}
    (hu : u.size = f.numVariables) (hbs : bs.length = f.numVariables) (hmodel : f.Holds (truths bs))
    (hfalse : ¬ f.Holds (valuation u)) : ∃ v, Neighbour f u v ∧ distance bs v < distance bs u := by
  obtain ⟨c, hc, hcf⟩ := exists_falsified hfalse
  obtain ⟨l, hl, hlt⟩ := hmodel c hc
  have hne : valuation u l.var ≠ some (!l.negated) := fun e => hcf ⟨l, hl, e⟩
  obtain ⟨h0, hn⟩ := f.inRange c hc l hl
  have hj : l.var.toNat < u.size := by omega
  refine ⟨_, neighbour_of_untrue hu hc hcf hl, ?_⟩
  have hmem : l.var.toNat ∈ (Finset.range u.size).filter fun j => u.getD j none ≠ bs[j]? := by
    rw [Finset.mem_filter, Finset.mem_range]
    exact ⟨hj, fun e => hne (e.trans hlt)⟩
  refine lt_of_le_of_lt (Finset.card_le_card ?_) (Finset.card_erase_lt_of_mem hmem)
  intro j
  simp only [Finset.mem_filter, Finset.mem_range, Finset.mem_erase, Array.size_setIfInBounds]
  rintro ⟨hjn, hd⟩
  by_cases e : j = l.var.toNat
  · subst e
    have hb : bs[l.var.toNat]? = some (!l.negated) := hlt
    rw [hb] at hd
    simp [hj] at hd
  · refine ⟨e, hjn, ?_⟩
    simpa [Array.getD_eq_getD_getElem?, Array.getElem?_setIfInBounds_ne (Ne.symm e)] using hd

/-- **Falsified values closed under candidate moves exclude every model.** -/
theorem not_satisfiable_of_closed {f : Formula} {C : Values → Prop}
    (hsize : ∀ u, C u → u.size = f.numVariables) (hfalse : ∀ u, C u → ¬ f.Holds (valuation u))
    (hnext : ∀ u v, C u → Neighbour f u v → C v) {u : Values} (hu : C u) : ¬ f.Satisfiable := by
  rintro ⟨bs, hbs, hmodel⟩
  -- a state of least distance would have a nearer neighbour in the set
  induction hd : distance bs u using Nat.strongRecOn generalizing u with
  | ind d ih =>
    obtain ⟨v, hv, hlt⟩ := exists_nearer_neighbour (hsize u hu) hbs hmodel (hfalse u hu)
    exact ih (distance bs v) (by omega) (hnext u v hu hv) rfl

end Search.Greedy

end LocalSat
