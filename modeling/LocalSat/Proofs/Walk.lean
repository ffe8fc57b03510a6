import LocalSat.Proofs.Trail
import LocalSat.Proofs.Trajectory
import LocalSat.Search.Walk

/-!
# The random walk is regular

A falsified formula has a variable to draw, and a draw lies in its range, so a step of the walk on a
falsified state of the formula's length succeeds (`step_eq`) and the walk is regular (`regular`). It never
gives up (`not_exhausted`).
-/

namespace LocalSat.Search.Walk

theorem numVariables_pos {f : Formula} {s : State} (h : ¬ s.Solves f) : 0 < f.numVariables := by
  obtain ⟨c, hc, -⟩ := exists_falsified h
  obtain ⟨l, hl⟩ := List.exists_mem_of_ne_nil c.literals c.nonempty
  obtain ⟨h0, hlt⟩ := f.inRange c hc l hl
  omega

theorem step_eq {f : Formula} {s : State} (h : s.assignment.size = f.numVariables)
    (hn : 0 < f.numVariables) :
    ∃ s', step f s = (s', .ok ()) ∧ s'.assignment.size = s.assignment.size ∧ s'.best = s.best ∧
      s'.phase = s.phase ∧ s'.iterations = s.iterations + 1 := by
  unfold step
  rw [if_neg (by omega)]
  have hi := Random.Generator.below_lt hn s.generator
  generalize s.generator.below f.numVariables = draw at hi ⊢
  obtain ⟨i, g⟩ := draw
  simp only at hi ⊢
  generalize g.coin = flip
  obtain ⟨b, g'⟩ := flip
  simp only
  have ha := Assignment.apply_eq (a := s.assignment) (m := ⟨i, .int (if b then 1 else 0)⟩)
    (by simp) (by simp only [h]; exact_mod_cast hi)
  have hsize := Assignment.size_apply ha
  rw [ha]
  exact ⟨_, rfl, hsize, rfl, rfl, rfl⟩

/-- **The random walk is regular.** -/
theorem regular {m : Method} (hm : m = method) : m.Regular := by
  subst hm
  intro f s h hs hf
  obtain ⟨s', hstep, hsize, hb, hp, hi⟩ := step_eq h (numVariables_pos hf)
  exact ⟨s', hstep, hsize, hb, Or.inl ⟨hp.trans hs, hi⟩⟩

/-- The walk never gives up. -/
theorem not_exhausted {t : Task} {r : Run} (hm : t.method = method) : ∀ {rest : List Run} {q : Run},
    t.Trajectory r (q :: rest) → q.state.phase ≠ .exhausted
  | [], q, h => by
    cases h with
    | start hl =>
      obtain ⟨g, hg⟩ := Task.generator_of_launch hl
      exact (Task.fresh_of_launch hg hl).phase
  | p :: rest, q, h => by
    obtain ⟨s', hb, hs, hstep, -, hq⟩ := h.latest (regular hm)
    have hsc := hb.scored (regular hm) p List.mem_cons_self
    obtain ⟨s₁, h₁, -, -, hp, -⟩ := step_eq hsc.size (numVariables_pos (hsc.not_solves hs))
    rw [hm, show method.step = step from rfl, h₁] at hstep
    cases hstep
    rw [hq, if_pos (hp.trans hs)]
    exact State.rescored_ne_exhausted t.formula (hp.trans hs)

end LocalSat.Search.Walk
