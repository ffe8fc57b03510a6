import LocalSat.Proofs.Greedy.Bound
import LocalSat.Proofs.Walk

/-!
# What an outcome tells

An outcome is `Sound` for the formula and the assignment that the search ended with when its status, its
counts and what it reports agree with whether that assignment makes the formula true. Main statement:
every outcome that a greedy search or a random walk returns is sound, and the walk never claims to have
exhausted anything (`outcome_sound`).
-/

namespace LocalSat

namespace Search

/-! ## What is reported of a model -/

theorem completes_completion (a : Assignment) : Completes (completion a) a.values := by
  refine ⟨by simp [completion], fun j b h => ?_⟩
  rw [completion, List.getElem?_map, Array.getElem?_toList, h]
  rfl

theorem completion_of_open {a : Assignment} {j : Nat} (h : a.values[j]? = some none) :
    (completion a)[j]? = some false := by
  rw [completion, List.getElem?_map, Array.getElem?_toList, h]
  rfl

theorem State.Solves.satisfiable {s : State} {f : Formula} (h : s.Solves f)
    (hsize : s.assignment.size = f.numVariables) : f.Satisfiable := by
  have hc := completes_completion s.assignment
  exact ⟨completion s.assignment, hc.1.trans hsize, h.mono fun i b => hc.truths_eq⟩

/-- The signed integers of truth values, counted from one. -/
def signed (bs : List Bool) : List Int := (bs.zipIdx 1).map fun (b, i) => if b then (i : Int) else -i

theorem toSigned_mem_signed {bs : List Bool} {l : Literal} (h0 : 0 ≤ l.var) (h : l.Holds (truths bs)) :
    l.toSigned ∈ signed bs := by
  have hb : bs[l.var.toNat]? = some (!l.negated) := h
  have hmem : (!l.negated, l.var.toNat + 1) ∈ bs.zipIdx 1 := by
    rw [List.mk_mem_zipIdx_iff_le_and_getElem?_sub]
    exact ⟨by omega, by simpa using hb⟩
  refine List.mem_map.2 ⟨_, hmem, ?_⟩
  rw [Literal.toSigned]
  cases l.negated <;> simp <;> omega

theorem report_model_eq {o : Outcome} {bs : List Bool} (h : o.report.assignment = .list (bs.map .bool)) :
    o.report.model = .list ((signed bs).map .int) := by
  rw [Report.model, h]
  simp only [signed, List.zipIdx_map, List.map_map, Value.list.injEq]
  exact List.map_congr_left fun _ _ => rfl

/-! ## Sound outcomes -/

/-- The truth values that an outcome reports, which complete the values that the search ended with. -/
structure Outcome.Reports (o : Outcome) (f : Formula) (vs : Values) (bs : List Bool) : Prop where
  assignment : o.report.assignment = .list (bs.map .bool)
  length : bs.length = f.numVariables
  agrees : ∀ (j : Nat) (b : Bool), vs[j]? = some (some b) → bs[j]? = some b
  unassigned : ∀ j : Nat, vs[j]? = some none → bs[j]? = some false
  satisfies : f.isSatisfied (Reading.ofValues (bs.map Value.bool).toArray) = .ok true
  model : ∃ ns : List Int, o.report.model = .list (ns.map .int) ∧
    ∀ c ∈ f.clauses, ∃ l ∈ c.literals, l.toSigned ∈ ns

/-- The outcome agrees with whether the assignment makes the formula true. -/
structure Outcome.Sound (o : Outcome) (f : Formula) (a : Assignment) : Prop where
  satisfied_iff : o.status = .satisfiable ↔ f.isSatisfied a.look = .ok true
  clauses_iff : o.status = .satisfiable ↔ o.satisfiedClauses = o.totalClauses
  best_iff : o.status = .satisfiable ↔
    Value.lookup? "best_unsatisfied" o.report.statistics = some (.int 0)
  reports : o.status = .satisfiable → ∃ bs, o.Reports f a.values bs
  completions : o.status = .satisfiable → ∀ bs, Completes bs a.values →
    f.isSatisfied (Reading.ofValues (bs.map Value.bool).toArray) = .ok true
  withheld : o.status ≠ .satisfiable → o.report.assignment = .null ∧ o.report.model = .null

theorem Phase.status_eq_satisfiable_iff {p : Phase} : p.status = .satisfiable ↔ p = .solved := by
  cases p <;> simp [Phase.status]

theorem Phase.status_eq_exhausted_iff {p : Phase} : p.status = .exhausted ↔ p = .exhausted := by
  cases p <;> simp [Phase.status]

theorem Phase.status_eq_timeout_iff {p : Phase} : p.status = .timeout ↔ p = .searching := by
  cases p <;> simp [Phase.status]

section
variable {t : Task} {s : State} {o : Outcome}

theorem Task.Ended.solves_iff (h : t.Ended s o) (hs : Scored t.formula s) :
    o.status = .satisfiable ↔ s.Solves t.formula := by
  rw [h.status, Phase.status_eq_satisfiable_iff, hs.solved_iff]

theorem Task.Ended.reports (h : t.Ended s o) (hs : Scored t.formula s) (hsat : o.status = .satisfiable) :
    o.Reports t.formula s.assignment.values (completion s.assignment) := by
  have hsolves := (h.solves_iff hs).1 hsat
  have hc := completes_completion s.assignment
  have ha : o.report.assignment = .list ((completion s.assignment).map .bool) := by
    rw [Outcome.report, h.model, if_pos hsat]
    rfl
  exact
  { assignment := ha
    length := hc.1.trans hs.size
    agrees := hc.2
    unassigned := fun j => completion_of_open
    satisfies := hc.isSatisfied hs.size hsolves
    model := by
      refine ⟨signed (completion s.assignment), report_model_eq ha, fun c hcl => ?_⟩
      obtain ⟨l, hl, hlt⟩ := hsolves.mono (fun i b => hc.truths_eq) c hcl
      exact ⟨l, hl, toSigned_mem_signed (t.formula.inRange c hcl l hl).1 hlt⟩ }

/-- An outcome read off a scored state is sound. -/
theorem Task.Ended.sound (h : t.Ended s o) (hs : Scored t.formula s) : o.Sound t.formula s.assignment := by
  have hiff := h.solves_iff hs
  have hreads := reads_look hs.size
  exact
  { satisfied_iff := by
      rw [hiff, isSatisfied_eq_true_iff hreads]
      rfl
    clauses_iff := by
      rw [hiff, h.total, satisfiedCount_eq_size_iff hreads h.satisfied]
      rfl
    best_iff := by
      rw [hiff, ← hs.best_iff, Outcome.report, h.counters, Task.counters]
      simp [Value.lookup?]
    reports := fun hsat => ⟨_, h.reports hs hsat⟩
    completions := fun hsat bs hc => hc.isSatisfied hs.size (hiff.1 hsat)
    withheld := by
      intro hsat
      have ha : o.report.assignment = .null := by
        rw [Outcome.report, h.model, if_neg hsat]
        rfl
      refine ⟨ha, ?_⟩
      rw [Report.model, ha] }

end

end Search

/-! ## Returned outcomes -/

namespace Solver

open Search

variable {s s' : Solver} {w : Surroundings} {o : Outcome}

/-- **Whatever is returned is sound**, at whatever limits and by whatever clock, and a random walk never
returns that it is exhausted. -/
theorem outcome_sound (hm : s.method = Greedy.method ∨ s.method = Walk.method) (h : s.Returns w s' o) :
    o.Sound s.formula s'.run.state.assignment ∧
      (s.method = Walk.method → o.status ≠ .exhausted) := by
  have hreg : s.method.Regular := by
    rcases hm with hm | hm
    · exact Greedy.regular hm
    · exact Walk.regular hm
  obtain ⟨q, rest, ht, -, hq, he⟩ := h.ended
  rw [hq]
  refine ⟨he.sound (ht.scored hreg q List.mem_cons_self), fun hw hx => ?_⟩
  have hne := Walk.not_exhausted (show (s.task w).method = Walk.method from hw) ht
  rw [he.status] at hx
  cases hp : q.state.phase with
  | searching => rw [hp] at hx; cases hx
  | solved => rw [hp] at hx; cases hx
  | exhausted => exact hne hp

theorem outcome_sound_oneOfTwo : ∃ s' o, (Solver.oneOfTwo Greedy.method).Returns .still s' o ∧
    o.Sound .oneOfTwo s'.run.state.assignment := by
  obtain ⟨s', o, h⟩ := Greedy.solve?_isSome (s := Solver.oneOfTwo Greedy.method) rfl ⟨7, rfl⟩
    ⟨rfl, rfl⟩ .still
  exact ⟨s', o, ⟨_, h⟩, (outcome_sound (Or.inl rfl) ⟨_, h⟩).1⟩

end Solver

end LocalSat
