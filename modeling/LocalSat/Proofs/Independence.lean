import Mathlib.Data.Option.Basic
import LocalSat.Proofs.Limits

/-!
# What a run depends on

Two states are twins when they differ in the number of runs at most. A method is `Oblivious` when its step
neither reads nor changes that number, so it takes twins to twins; so does everything else that a run is
made of, if no time is limited. As a run drops all that it finds before its first step (`launch_twin`),
its answer depends on its task alone, whatever clock it is timed by and whether it is recorded or not
(`solveWithin_twin`). Main statement: a solver forgets what it has been through (`solver_forgets`).
-/

namespace LocalSat

namespace Search

/-! ## Twins -/

/-- The states are alike, one being in run `n` and the other in run `n'`. -/
structure State.Twin (n n' : Nat) (s s' : State) : Prop where
  runs : s.runs = n
  eq : s' = { s with runs := n' }

/-- Both succeed with related results, or both fail for the same cause. -/
inductive Corresponds {ε α : Type} (R : α → α → Prop) : Except ε α → Except ε α → Prop
  | ok {a b : α} (related : R a b) : Corresponds R (.ok a) (.ok b)
  | error (e : ε) : Corresponds R (.error e) (.error e)

/-- The method's step neither reads nor changes the number of runs, and its counters do not show it. -/
structure Method.Oblivious (m : Method) : Prop where
  step : ∀ (f : Formula) (s : State) (n : Nat),
    m.step f { s with runs := n } = ({ (m.step f s).1 with runs := n }, (m.step f s).2)
  counters : ∀ (s : State) (n : Nat), m.counters { s with runs := n } = m.counters s

theorem Greedy.oblivious : Greedy.method.Oblivious where
  step f s n := by
    show Greedy.step f _ = ({ (Greedy.step f s).1 with runs := n }, (Greedy.step f s).2)
    unfold Greedy.step
    cases Greedy.candidateMoves f s.assignment with
    | error e => rfl
    | ok ms =>
      simp only [Greedy.close]
      cases Greedy.selectMove f (s.closed.insert s.assignment.fingerprint) s.assignment ms with
      | error e => rfl
      | ok choice =>
        cases choice with
        | none =>
          unfold Greedy.backtrack
          by_cases hh : s.assignment.history.isEmpty
          · simp only [hh, if_true]
          · simp only [hh]
            cases s.assignment.undo? <;> rfl
        | some m =>
          simp only [Greedy.advance]
          cases s.assignment.apply m <;> rfl
  counters _ _ := rfl

theorem Walk.oblivious : Walk.method.Oblivious where
  step f s n := by
    show Walk.step f _ = ({ (Walk.step f s).1 with runs := n }, (Walk.step f s).2)
    unfold Walk.step
    by_cases hf : f.numVariables = 0
    · simp only [hf, if_true]
    · simp only [hf, if_false]
      generalize s.generator.below f.numVariables = draw
      obtain ⟨i, g⟩ := draw
      simp only
      generalize g.coin = flip
      obtain ⟨b, g'⟩ := flip
      simp only
      cases s.assignment.apply ⟨i, .int (if b then 1 else 0)⟩ <;> rfl
  counters _ _ := rfl

theorem Method.Oblivious.runs_eq {m : Method} (hm : m.Oblivious) (f : Formula) (s : State) :
    (m.step f s).1.runs = s.runs := by
  have h := hm.step f s s.runs
  exact congrArg (fun x => x.1.runs) h

namespace Task

/-- The tasks differ in their clocks and their records at most, and limit no time. -/
structure Timeless (t t' : Task) : Prop extends t.Alike t' where
  maxIterations : t.maxIterations = t'.maxIterations
  timeout : t.timeout = .never
  timeout' : t'.timeout = .never

section
variable {t t' : Task} {p p' : Run} {n n' : Nat}

/-! ## One function after the other -/

theorem unsatisfied_twin {s s' : State} (h : t.Timeless t') (hs : s.Twin n n' s') :
    t.unsatisfied s = t'.unsatisfied s' := by
  simp only [unsatisfied, h.formula, hs.eq]

theorem update_twin (h : t.Timeless t') (hp : p.state.Twin n n' p'.state) :
    (t.update p).1.state.Twin n n' (t'.update p').1.state ∧ (t.update p).2 = (t'.update p').2 := by
  have hu := unsatisfied_twin h hp
  have hb : p.state.best = p'.state.best := by rw [hp.eq]
  unfold update
  rw [← hu]
  cases t.unsatisfied p.state with
  | error e => exact ⟨hp, rfl⟩
  | ok u =>
    rw [← hb]
    by_cases hlt : u < p.state.best
    · simp only [hlt, if_true, improve, and_true]
      exact ⟨hp.runs, by rw [hp.eq]⟩
    · simp only [hlt, if_false, and_true]
      exact ⟨hp.runs, by rw [hp.eq]⟩

theorem step_twin {m : Method} (hm : m.Oblivious) (f : Formula) {s s' : State} (hs : s.Twin n n' s') :
    (m.step f s).1.Twin n n' (m.step f s').1 ∧ (m.step f s).2 = (m.step f s').2 := by
  have hstep := hm.step f s n'
  rw [← hs.eq] at hstep
  rw [hstep]
  exact ⟨⟨(hm.runs_eq f s).trans hs.runs, rfl⟩, rfl⟩

theorem round_twin (hm : t.method.Oblivious) (h : t.Timeless t') (hp : p.state.Twin n n' p'.state) :
    (t.round p).1.state.Twin n n' (t'.round p').1.state ∧ (t.round p).2 = (t'.round p').2 := by
  obtain ⟨hs, hr⟩ := step_twin hm t.formula hp
  unfold round
  rw [← h.method, ← h.formula]
  generalize t.method.step t.formula p.state = x at hs hr ⊢
  generalize t.method.step t.formula p'.state = y at hs hr ⊢
  obtain ⟨s, r⟩ := x
  obtain ⟨s', r'⟩ := y
  simp only at hs hr ⊢
  rw [← hr]
  match r with
  | .error e => exact ⟨hs, rfl⟩
  | .ok () =>
    simp only
    have hphase : s.phase = s'.phase := by rw [hs.eq]
    rw [← hphase]
    by_cases hsearch : s.phase = .searching
    · have hp' : ({ p with state := s } : Run).state.Twin n n' ({ p' with state := s' } : Run).state := hs
      obtain ⟨hq, hu⟩ := update_twin h hp'
      simp only [hsearch, if_true]
      exact ⟨hq, by rw [hu]⟩
    · simp only [hsearch, if_false]
      exact ⟨hs, trivial⟩

theorem stop_twin (l : Limit) (note : Notice) (hp : p.state.Twin n n' p'.state) :
    (stop p l note).1.state.Twin n n' (stop p' l note).1.state ∧
      (stop p l note).2 = (stop p' l note).2 := by
  unfold stop
  by_cases hl : l.Printable
  · simp only [hl, if_true]
    exact ⟨hp, trivial⟩
  · simp only [hl, if_false]
    exact ⟨hp, trivial⟩

theorem limited_twin (h : t.Timeless t') (started started' : Float) (hp : p.state.Twin n n' p'.state) :
    (t.limited started p).1.state.Twin n n' (t'.limited started' p').1.state ∧
      (t.limited started p).2 = (t'.limited started' p').2 := by
  have hi : p.state.iterations = p'.state.iterations := by rw [hp.eq]
  unfold limited
  rw [h.timeout, h.timeout', ← h.maxIterations, ← hi]
  cases t.maxIterations.reachedBy p.state.iterations with
  | error e => exact ⟨hp, rfl⟩
  | ok b =>
    cases b with
    | false => exact ⟨hp, rfl⟩
    | true => exact stop_twin t.maxIterations .iterationLimit hp

/-- Loops from twins end in twins, and for the same reason. -/
theorem loop_twin (hm : t.method.Oblivious) (h : t.Timeless t') (started started' : Float) :
    ∀ (rounds : Nat) {p p' : Run}, p.state.Twin n n' p'.state →
      Option.Rel (fun x y => x.1.state.Twin n n' y.1.state ∧ x.2 = y.2)
        (t.loop started rounds p) (t'.loop started' rounds p')
  | 0, _, _, _ => .none
  | rounds + 1, p, p', hp => by
    have hphase : p.state.phase = p'.state.phase := by rw [hp.eq]
    rw [loop_succ, loop_succ, ← hphase]
    by_cases hs : p.state.phase ≠ .searching
    · rw [if_pos hs, if_pos hs]
      exact .some ⟨hp, rfl⟩
    · rw [if_neg hs, if_neg hs]
      obtain ⟨hq, hl⟩ := limited_twin h started started' hp
      generalize t.limited started p = x at hq hl ⊢
      generalize t'.limited started' p' = y at hq hl ⊢
      obtain ⟨q, b⟩ := x
      obtain ⟨q', b'⟩ := y
      simp only at hq hl
      rw [← hl]
      cases b with
      | error e => exact .some ⟨hq, rfl⟩
      | ok limited =>
        cases limited with
        | true => exact .some ⟨hq, rfl⟩
        | false =>
          obtain ⟨hq', hr⟩ := round_twin hm h hq
          simp only
          generalize t.round q = u at hq' hr ⊢
          generalize t'.round q' = v at hq' hr ⊢
          obtain ⟨z, r⟩ := u
          obtain ⟨z', r'⟩ := v
          simp only at hq' hr
          rw [← hr]
          cases r with
          | error e => exact .some ⟨hq', rfl⟩
          | ok _ => exact loop_twin hm h started started' rounds hq'

/-- **A run drops what it finds**: launched from whatever states, it begins in twins. -/
theorem launch_twin {g : Random.Generator} (h : t.Timeless t') (hg : t.generator = .ok g) (r r' : Run) :
    ∃ p p', t.launch r = (p, .ok ()) ∧ t'.launch r' = (p', .ok ()) ∧
      p.state.Twin (r.state.runs + 1) (r'.state.runs + 1) p'.state := by
  obtain ⟨p, hl, hp⟩ := launch_opening hg r
  obtain ⟨p', hl', hp'⟩ := launch_opening (h.generator ▸ hg) r'
  refine ⟨p, p', hl, hl', ?_⟩
  rw [hp, hp']
  refine ⟨rfl, ?_⟩
  simp only [opening, startValues, h.formula, h.start]
  rfl

theorem outcome_twin (hm : t.method.Oblivious) (h : t.Timeless t') (started started' : Float)
    (stopped : Bool) (hp : p.state.Twin n n' p'.state) :
    (t.outcome started stopped p).1.state.Twin n n' (t'.outcome started' stopped p').1.state ∧
      Corresponds Outcome.Agrees (t.outcome started stopped p).2 (t'.outcome started' stopped p').2 := by
  have hc : t.counters p.state = t'.counters p'.state := by
    simp only [counters, ← h.method, hp.eq, hm.counters]
  unfold outcome
  simp only [← h.formula, ← h.method, ← hc]
  rw [show p'.state.assignment = p.state.assignment by rw [hp.eq]]
  cases t.formula.satisfiedCount p.state.assignment.look with
  | error e => exact ⟨hp, .error _⟩
  | ok k =>
    refine ⟨hp, .ok ?_⟩
    simp only [Outcome.Agrees, status, hp.eq]
    rfl

/-- **The answer of a run** depends on its task alone: not on what was there before, nor on the clock
and the record. -/
theorem solveWithin_twin {g : Random.Generator} (hm : t.method.Oblivious) (h : t.Timeless t')
    (hg : t.generator = .ok g) (rounds : Nat) (r r' : Run) :
    Option.Rel (fun x y => x.1.state.Twin (r.state.runs + 1) (r'.state.runs + 1) y.1.state ∧
      Corresponds Outcome.Agrees x.2 y.2) (t.solveWithin rounds r) (t'.solveWithin rounds r') := by
  obtain ⟨p, p', hl, hl', hp⟩ := launch_twin h hg r r'
  have hloop := loop_twin hm h (t.clock r.readings) (t'.clock r'.readings) rounds hp
  rw [Task.solveWithin_eq, Task.solveWithin_eq]
  simp only [hl, hl']
  generalize t.loop (t.clock r.readings) rounds p = x at hloop ⊢
  generalize t'.loop (t'.clock r'.readings) rounds p' = y at hloop ⊢
  cases hloop with
  | none => exact .none
  | @some a b hab =>
    obtain ⟨q, s⟩ := a
    obtain ⟨q', s'⟩ := b
    obtain ⟨hq, hs⟩ := hab
    simp only at hq hs
    subst hs
    cases s with
    | error e => exact .some ⟨hq, .error e⟩
    | ok stopped =>
      exact .some (outcome_twin hm h (t.clock r.readings) (t'.clock r'.readings) stopped hq)

end

end Task

end Search

namespace Solver

open Search

/-- The solvers have the same task, without a limit on time; what they have been through may differ. -/
structure SameTask (s₁ s₂ : Solver) : Prop where
  method : s₁.method = s₂.method
  formula : s₁.formula = s₂.formula
  seed : s₁.settings.seed = s₂.settings.seed
  initialization : s₁.settings.initialization = s₂.settings.initialization
  maxIterations : s₁.settings.maxIterations = s₂.settings.maxIterations
  timeout : s₁.settings.timeout = .null
  timeout' : s₂.settings.timeout = .null

/-- Each solver has made one run more and they are in the same state otherwise, with outcomes that agree
in everything but the runtime, or with the same failure. -/
structure SameEnd (s₁ s₂ : Solver) (x y : Solver × Except Failure Outcome) : Prop where
  runs : x.1.run.state.runs = s₁.run.state.runs + 1
  state : y.1.run.state = { x.1.run.state with runs := s₂.run.state.runs + 1 }
  answer : Corresponds Outcome.Agrees x.2 y.2

section
variable {s₁ s₂ : Solver} {g : Random.Generator}

theorem SameTask.timeless (h : s₁.SameTask s₂) (w₁ w₂ : Surroundings) :
    (s₁.task w₁).Timeless (s₂.task w₂) := by
  refine ⟨⟨h.formula, h.method, ?_, ?_⟩, ?_, ?_, ?_⟩
  · simp only [task, Settings.start, h.initialization]
  · simp only [task, h.seed]
  · simp only [task, h.maxIterations]
  · exact timeout_of_null h.timeout _
  · exact timeout_of_null h.timeout' _

theorem SameTask.refl {s : Solver} (ht : s.settings.timeout = .null) : s.SameTask s where
  method := rfl
  formula := rfl
  seed := rfl
  initialization := rfl
  maxIterations := rfl
  timeout := ht
  timeout' := ht

theorem oblivious_of_method (hm : s₁.method = Greedy.method ∨ s₁.method = Walk.method) :
    s₁.method.Oblivious := by
  rcases hm with hm | hm
  · exact hm ▸ Greedy.oblivious
  · exact hm ▸ Walk.oblivious

theorem SameTask.rounds_eq (h : s₁.SameTask s₂) (w₁ w₂ : Surroundings) :
    (s₁.task w₁).rounds = (s₂.task w₂).rounds := by
  have ht := h.timeless w₁ w₂
  simp only [Task.rounds, ht.maxIterations, ht.method, ht.formula]

/-- A solver that has run has the task it had. -/
theorem sameTask_of_solve? {s' : Solver} {w : Surroundings} {o : Outcome} (h : s₁.SameTask s₂)
    (hs : s₁.solve? w = some (s', .ok o)) : s₁.SameTask s' := by
  obtain ⟨r', -, rfl⟩ := solveWithin_ok_iff.1 hs
  exact
  { method := rfl
    formula := rfl
    seed := rfl
    initialization := rfl
    maxIterations := rfl
    timeout := h.timeout
    timeout' := h.timeout }

theorem SameTask.solveWithin (hm : s₁.method.Oblivious) (h : s₁.SameTask s₂)
    (hg : Random.Generator.ofValue s₁.settings.seed = .ok g) (w₁ w₂ : Surroundings) (rounds : Nat) :
    Option.Rel (SameEnd s₁ s₂) (s₁.solveWithin w₁ rounds) (s₂.solveWithin w₂ rounds) := by
  have hrel := Task.solveWithin_twin hm (h.timeless w₁ w₂) hg rounds s₁.run s₂.run
  unfold Solver.solveWithin
  generalize (s₁.task w₁).solveWithin rounds s₁.run = x at hrel ⊢
  generalize (s₂.task w₂).solveWithin rounds s₂.run = y at hrel ⊢
  cases hrel with
  | none => exact .none
  | @some a b hab =>
    obtain ⟨r, e⟩ := a
    obtain ⟨r', e'⟩ := b
    obtain ⟨hstate, hanswer⟩ := hab
    refine .some ⟨hstate.runs, hstate.eq, ?_⟩
    cases hanswer with
    | ok hagrees => exact .ok hagrees
    | error e => exact .error _

/-- When one of two solvers with the same task comes to an outcome, so does the other, and they agree. -/
theorem SameTask.solveWithin_ok {s' : Solver} {w₁ : Surroundings} {rounds : Nat} {o : Outcome}
    (hm : s₁.method.Oblivious) (h : s₁.SameTask s₂)
    (hg : Random.Generator.ofValue s₁.settings.seed = .ok g)
    (hs : s₁.solveWithin w₁ rounds = some (s', .ok o)) (w₂ : Surroundings) :
    ∃ s'' o', s₂.solveWithin w₂ rounds = some (s'', .ok o') ∧ o.Agrees o' ∧
      s''.run.state = { s'.run.state with runs := s₂.run.state.runs + 1 } := by
  have hrel := h.solveWithin hm hg w₁ w₂ rounds
  rw [hs] at hrel
  generalize s₂.solveWithin w₂ rounds = y at hrel
  cases hrel with
  | @some _ b hab =>
    obtain ⟨s'', answer⟩ := b
    obtain ⟨-, hstate, hanswer⟩ := hab
    cases hanswer with
    | @ok _ o' hagrees => exact ⟨s'', o', rfl, hagrees, hstate⟩

theorem SameTask.solve?_ok {s' : Solver} {w₁ : Surroundings} {o : Outcome} (hm : s₁.method.Oblivious)
    (h : s₁.SameTask s₂) (hg : Random.Generator.ofValue s₁.settings.seed = .ok g)
    (hs : s₁.solve? w₁ = some (s', .ok o)) (w₂ : Surroundings) :
    ∃ s'' o', s₂.solve? w₂ = some (s'', .ok o') ∧ o.Agrees o' ∧
      s''.run.state = { s'.run.state with runs := s₂.run.state.runs + 1 } := by
  unfold solve?
  rw [← h.rounds_eq w₁ w₂]
  exact h.solveWithin_ok hm hg hs w₂

end

/-- **A solver forgets** what it has been through: two solvers with the same task come to the same end, or
both to none, whatever states they are in and whatever clocks and records they run by. So a second run
repeats the first. -/
theorem solver_forgets {s₁ s₂ : Solver} {g : Random.Generator}
    (hm : s₁.method = Greedy.method ∨ s₁.method = Walk.method) (h : s₁.SameTask s₂)
    (hg : Random.Generator.ofValue s₁.settings.seed = .ok g) (w₁ w₂ : Surroundings) :
    Option.Rel (SameEnd s₁ s₂) (s₁.solve? w₁) (s₂.solve? w₂) ∧
    (∀ rounds, Option.Rel (SameEnd s₁ s₂) (s₁.solveWithin w₁ rounds) (s₂.solveWithin w₂ rounds)) ∧
    ∀ s' o, s₁.solve? w₁ = some (s', .ok o) → ∃ s'' o', s'.solve? w₂ = some (s'', .ok o') ∧
      o.Agrees o' ∧ s''.run.state = { s'.run.state with runs := s'.run.state.runs + 1 } := by
  have hob := oblivious_of_method hm
  refine ⟨?_, h.solveWithin hob hg w₁ w₂, fun s' o hs => ?_⟩
  · unfold solve?
    rw [← h.rounds_eq w₁ w₂]
    exact h.solveWithin hob hg w₁ w₂ _
  · have hagain : s₁.SameTask s' := sameTask_of_solve? h hs
    exact hagain.solve?_ok hob hg hs w₂

/-- A greedy solver on the small formula that has been used in many ways before. -/
def used : Solver :=
  { oneOfTwo Greedy.method with
    run :=
      { state :=
          { generator := .ofWords [3]
            assignment := ⟨#[some true, some true, none], [⟨1, none⟩, ⟨0, none⟩]⟩
            phase := .exhausted
            iterations := 9
            runs := 4
            best := 0
            closed := {[1, 0, 255], [255, 255, 255]}
            moves := 6
            backtracks := 3 }
        readings := 12
        notices := [.timeLimit] } }

theorem solver_forgets_used : ∃ s₁ s₂ o₁ o₂,
    (oneOfTwo Greedy.method).solve? .still = some (s₁, .ok o₁) ∧ used.solve? .still = some (s₂, .ok o₂) ∧
      o₁.Agrees o₂ ∧ s₁.run.state.runs = 1 ∧ s₂.run.state = { s₁.run.state with runs := 5 } := by
  obtain ⟨s₁, o₁, h⟩ := Greedy.solve?_isSome (s := oneOfTwo Greedy.method) rfl ⟨7, rfl⟩ ⟨rfl, rfl⟩ .still
  have hsame : (oneOfTwo Greedy.method).SameTask used := ⟨rfl, rfl, rfl, rfl, rfl, rfl, rfl⟩
  obtain ⟨hrel, -⟩ := solver_forgets (Or.inl rfl) hsame rfl .still .still
  rw [h] at hrel
  generalize hy : used.solve? .still = y at hrel
  cases hrel with
  | @some _ b hab =>
    obtain ⟨s₂, answer⟩ := b
    obtain ⟨hruns, hstate, hanswer⟩ := hab
    cases hanswer with
    | @ok _ o₂ hagrees => exact ⟨s₁, s₂, o₁, o₂, h, rfl, hagrees, hruns, hstate⟩

end Solver

end LocalSat
