import LocalSat.Proofs.Outcome

/-!
# The greedy search is complete

A greedy search that gives up has closed its start values and, with any values, all their neighbours; as
closed values are falsified, no truth values can satisfy the formula (`not_satisfiable_of_exhausted`).
Main statement: without limits a greedy solver decides satisfiability, and at any limits it is exhausted
only on formulas that cannot be satisfied (`solver_complete`).
-/

namespace LocalSat.Search.Greedy

/-- **A greedy search that gives up** has shown that the formula cannot be satisfied. -/
theorem not_satisfiable_of_exhausted {t : Task} {r q : Run} {rest : List Run} (hm : t.method = method)
    (h : t.Trajectory r (q :: rest)) (hq : q.state.phase = .exhausted) : ¬ t.formula.Satisfiable := by
  obtain ⟨r₀, hl⟩ := h.launched
  obtain ⟨hsize, hin⟩ := launch_within hl
  have hE := explored hm hl h
  refine not_satisfiable_of_closed (C := fun u => Assignment.key u ∈ q.state.closed) ?_ hE.falsified
    (fun u v => hE.closed_next hq) (hE.gaveUp hq).2.1
  intro u hu
  obtain ⟨v, hv, he⟩ := hE.closed_entered _ hu
  rw [← Assignment.key_injective he]
  exact (reached_kept hsize t.start.some_mem_entries hin (hE.reached v hv)).1

variable {s s' : Solver} {w : Surroundings} {o : Outcome}

/-- Without limits, what is returned tells whether the formula can be satisfied. -/
theorem status_iff_of_uncapped (hm : s.method = method) (hu : s.Uncapped) (h : s.Returns w s' o) :
    (o.status = .satisfiable ↔ s.formula.Satisfiable) ∧
      (o.status = .exhausted ↔ ¬ s.formula.Satisfiable) := by
  have hm' : (s.task w).method = method := hm
  obtain ⟨q, rest, ht, hq, -, he⟩ := h.ended
  have hsc := ht.scored (regular hm') q List.mem_cons_self
  rw [he.status]
  cases hp : q.state.phase with
  | searching => exact absurd hp (hu.not_searching hq)
  | solved =>
    have hsat : s.formula.Satisfiable := (hsc.solved_iff.1 hp).satisfiable hsc.size
    simp [Phase.status, hsat]
  | exhausted =>
    have hunsat : ¬ s.formula.Satisfiable := not_satisfiable_of_exhausted hm' ht hp
    simp [Phase.status, hunsat]

/-- **The greedy search is complete**: without limits it returns, and as satisfiable or exhausted
according to whether the formula can be satisfied; at any limits, exhausted means unsatisfiable. -/
theorem solver_complete (hm : s.method = method) (hs : s.Seeded) (w : Surroundings) :
    (s.Uncapped → ∃ s' o, s.solve? w = some (s', .ok o) ∧
      (o.status = .satisfiable ↔ s.formula.Satisfiable) ∧
      (o.status = .exhausted ↔ ¬ s.formula.Satisfiable)) ∧
    ∀ s' o, s.Returns w s' o → o.status = .exhausted → ¬ s.formula.Satisfiable := by
  refine ⟨fun hu => ?_, fun s' o h hx => ?_⟩
  · obtain ⟨s', o, ho⟩ := solve?_isSome hm hs hu w
    exact ⟨s', o, ho, status_iff_of_uncapped hm hu ⟨_, ho⟩⟩
  · obtain ⟨q, rest, ht, -, -, he⟩ := h.ended
    rw [he.status] at hx
    cases hp : q.state.phase with
    | searching => rw [hp] at hx; cases hx
    | solved => rw [hp] at hx; cases hx
    | exhausted => exact not_satisfiable_of_exhausted (t := s.task w) hm ht hp

theorem solver_complete_oneOfTwo : ∃ s' o,
    (Solver.oneOfTwo method).solve? .still = some (s', .ok o) ∧ o.status = .satisfiable := by
  obtain ⟨hsome, -⟩ := solver_complete (s := Solver.oneOfTwo method) rfl ⟨7, rfl⟩ .still
  obtain ⟨s', o, h, hsat, -⟩ := hsome ⟨rfl, rfl⟩
  exact ⟨s', o, h, hsat.2 ⟨[true, false, false], rfl, by decide⟩⟩

end LocalSat.Search.Greedy
