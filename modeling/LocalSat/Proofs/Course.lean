import LocalSat.Proofs.Returns

/-!
# The course of a run

What a run of a regular method passes through depends on its formula, its method, its start and its
generator alone. `course` lists the states that it comes to, round by round, as if there were no limits;
limits only decide where on its course a run stops. Main statement: a returned outcome is read off the
first state of the course that does not search or that a limit stops (`Returns.stops`).
-/

namespace LocalSat

namespace Search

/-- The state after one more round of the method. -/
def Method.next (m : Method) (f : Formula) (s : State) : State :=
  let s' := (m.step f s).1
  if s'.phase = .searching then s'.rescored f else s'

theorem Method.next_eq {m : Method} {f : Formula} {s s' : State} (h : m.step f s = (s', .ok ())) :
    m.next f s = if s'.phase = .searching then s'.rescored f else s' := by
  simp only [Method.next, h]

namespace Task

/-- The state after that many rounds of a run that is launched from the state `s`, limits aside. -/
def course (t : Task) (g : Random.Generator) (s : State) : Nat → State
  | 0 => t.opening g s
  | n + 1 => t.method.next t.formula (t.course g s n)

/-- The tasks differ in their limits, their clocks and their records at most. -/
structure Alike (t t' : Task) : Prop where
  formula : t.formula = t'.formula
  method : t.method = t'.method
  start : t.start = t'.start
  generator : t.generator = t'.generator

theorem Alike.course_eq {t t' : Task} (h : t.Alike t') (g : Random.Generator) (s : State) :
    ∀ n, t.course g s n = t'.course g s n
  | 0 => by
    obtain ⟨hf, -, hs, -⟩ := h
    simp only [course, opening, startValues, hf, hs]
  | n + 1 => by
    rw [course, course, h.course_eq g s n, h.method, h.formula]

section
variable {t : Task} {g : Random.Generator} {r p q : Run} {rest : List Run} {started : Float}

theorem unreached_of_limited (h : t.limited started p = (q, .ok false)) :
    t.maxIterations.reachedBy p.state.iterations = .ok false := by
  unfold limited at h
  split at h
  · cases h
  · obtain ⟨-, hs⟩ | ⟨-, hs⟩ := stop_cases p t.maxIterations .iterationLimit <;> rw [hs] at h <;> cases h
  · assumption

theorem reached_of_limited (ht : t.timeout = .never) (h : t.limited started p = (q, .ok true)) :
    t.maxIterations.reachedBy p.state.iterations = .ok true ∧ t.maxIterations.Printable := by
  obtain ⟨hr, hl⟩ | ⟨-, hl, -⟩ := limited_reached h (.inl rfl)
  · exact ⟨hr, hl.1 rfl⟩
  · exact absurd ht hl

/-- A trajectory follows the course. -/
theorem Trajectory.state_eq (hm : t.method.Regular) (hg : t.generator = .ok g) :
    ∀ {rest : List Run} {q : Run}, Trajectory t r (q :: rest) → q.state = t.course g r.state rest.length
  | [], q, h => by
    cases h with
    | start hl =>
      obtain ⟨r₀, hl', hs⟩ := launch_opening hg r
      rw [hl] at hl'
      cases hl'
      exact hs
  | p :: rest, q, h => by
    obtain ⟨s', hb, -, hstep, -, hq⟩ := h.latest hm
    have ih := Trajectory.state_eq hm hg hb
    rw [List.length_cons, course, ← ih, Method.next_eq hstep]
    exact hq

/-- Up to the end of a trajectory the course searches, and the limit on the iterations is not reached. -/
theorem Trajectory.before (hm : t.method.Regular) (hg : t.generator = .ok g) :
    ∀ {rest : List Run} {q : Run}, Trajectory t r (q :: rest) → ∀ i < rest.length,
      (t.course g r.state i).phase = .searching ∧ t.maxIterations.reachedBy i = .ok false
  | [], _, _, i, hi => absurd hi (Nat.not_lt_zero i)
  | p :: rest, q, h, i, hi => by
    cases h with
    | next hb hs hu hr =>
      rcases Nat.lt_succ_iff_lt_or_eq.1 hi with hi | rfl
      · exact Trajectory.before hm hg hb i hi
      · have hn := hb.length_eq hm
        rw [hs, if_neg (by decide)] at hn
        rw [← hb.state_eq hm hg, hn]
        exact ⟨hs, unreached_of_limited hu⟩

theorem reachedBy_cap_iff {M : Int} (ht : t.maxIterations = .at (.int M)) {n : Nat} {b : Bool} :
    t.maxIterations.reachedBy n = .ok b ↔ (M ≤ n ↔ b = true) := by
  rw [ht]
  show Except.ok (decide (M ≤ (n : Int))) = .ok b ↔ _
  cases b <;> simp

/-- The iterations stay within a cap. -/
theorem Trajectory.iterations_le_cap {M : Int} (hm : t.method.Regular) (hg : t.generator = .ok g)
    (h : Trajectory t r (q :: rest)) (ht : t.maxIterations = .at (.int M)) :
    q.state.iterations ≤ M.toNat := by
  have hn := h.length_eq hm
  by_contra hlt
  have hM := (reachedBy_cap_iff ht).1 (h.before hm hg M.toNat (by omega)).2
  simp only [Bool.false_eq_true, iff_false] at hM
  omega

/-- A run of the task, launched from the state `s`, ends after `n` rounds. -/
structure Stops (t : Task) (g : Random.Generator) (s : State) (n : Nat) : Prop where
  before : ∀ i < n, (t.course g s i).phase = .searching ∧ t.maxIterations.reachedBy i = .ok false
  counted : n = (t.course g s n).iterations + if (t.course g s n).phase = .exhausted then 1 else 0
  stopped : t.timeout = .never → (t.course g s n).phase = .searching →
    t.maxIterations.reachedBy n = .ok true ∧ t.maxIterations.Printable

theorem Stops.iterations_eq {s : State} {n : Nat} (h : t.Stops g s n)
    (hp : (t.course g s n).phase ≠ .exhausted) : (t.course g s n).iterations = n := by
  have hn := h.counted
  rw [if_neg hp, Nat.add_zero] at hn
  exact hn.symm

theorem Trajectory.stops (hm : t.method.Regular) (hg : t.generator = .ok g)
    (h : Trajectory t r (q :: rest)) (hq : t.Halts started q) : t.Stops g r.state rest.length := by
  have hs := h.state_eq hm hg
  have hn := h.length_eq hm
  rw [hs] at hn
  refine ⟨h.before hm hg, hn, fun ht hp => ?_⟩
  rw [hp, if_neg (by decide), ← hs] at hn
  rw [← hs] at hp
  rcases hq with hq | ⟨p', hl⟩
  · exact absurd hp hq
  · rw [hn]
    exact reached_of_limited ht hl

/-- The states of the course up to the end of a trajectory are its own. -/
theorem Trajectory.exists_state_eq (hm : t.method.Regular) (hg : t.generator = .ok g) :
    ∀ {rest : List Run} {q : Run}, Trajectory t r (q :: rest) → ∀ i ≤ rest.length,
      ∃ p ∈ q :: rest, p.state = t.course g r.state i
  | [], q, h, i, hi => by
    rw [Nat.le_zero.1 hi]
    exact ⟨q, List.mem_cons_self, h.state_eq hm hg⟩
  | p :: rest, q, h, i, hi => by
    rcases Nat.le_succ_iff.1 hi with hi | rfl
    · obtain ⟨s', hb, -⟩ := h.latest hm
      obtain ⟨x, hx, he⟩ := Trajectory.exists_state_eq hm hg hb i hi
      exact ⟨x, List.mem_cons_of_mem q hx, he⟩
    · exact ⟨q, List.mem_cons_self, h.state_eq hm hg⟩

theorem Trajectory.scored_course (hm : t.method.Regular) (hg : t.generator = .ok g)
    (h : Trajectory t r (q :: rest)) {i : Nat} (hi : i ≤ rest.length) :
    Scored t.formula (t.course g r.state i) := by
  obtain ⟨p, hp, he⟩ := h.exists_state_eq hm hg i hi
  exact he ▸ h.scored hm p hp

/-- Runs on one course stop where it stops searching, or before. -/
theorem Stops.le {t' : Task} {s : State} {m n : Nat} (h : t'.Stops g s n) (ha : t.Alike t')
    (hp : (t.course g s m).phase ≠ .searching) : n ≤ m := by
  by_contra hlt
  rw [ha.course_eq] at hp
  exact hp (h.before m (by omega)).1

/-- No state before the end stops searching, so a state that only searches from the end on is the end. -/
theorem Stops.eq_of_le {s : State} {m n : Nat} (h : t.Stops g s n) (hle : m ≤ n)
    (hs : (t.course g s m).phase = .searching → n ≤ m) : m = n := by
  by_contra hne
  have := hs (h.before m (by omega)).1
  omega

end

end Task

end Search

open Search

/-- **A returned outcome** is read off the state of the course that the run stops at. -/
theorem Solver.Returns.stops {s s' : Solver} {w : Surroundings} {o : Outcome} {g : Random.Generator}
    (h : s.Returns w s' o) (hm : s.method.Regular) (hg : (s.task w).generator = .ok g) :
    ∃ n, (s.task w).Stops g s.run.state n ∧
      s'.run.state = (s.task w).course g s.run.state n ∧
      (s.task w).Ended ((s.task w).course g s.run.state n) o := by
  obtain ⟨q, rest, ht, hq, hs, he⟩ := h.ended
  have hc := ht.state_eq hm hg
  exact ⟨rest.length, ht.stops hm hg hq, hs.trans hc, hc ▸ he⟩

end LocalSat
