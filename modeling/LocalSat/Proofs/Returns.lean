import LocalSat.Proofs.Trajectory
import LocalSat.Solver

/-!
# Solvers that return

`Returns` leaves open how many rounds it takes a solver to come to an outcome; there is at most one that
it comes to (`Returns.unique`), and it is read off the end of a trajectory of the solver's task
(`Returns.ended`).
-/

namespace LocalSat

open Search

namespace Search.Task

variable {t : Task} {r : Run} {started : Float} {rounds rounds' : Nat}

/-- A loop that has ended is not affected by further rounds. -/
theorem loop_mono : ∀ {rounds rounds' : Nat} {p : Run} {x : Run × Except Fault Bool}, rounds ≤ rounds' →
    t.loop started rounds p = some x → t.loop started rounds' p = some x
  | 0, _, _, _, _, h => by cases h
  | rounds + 1, 0, _, _, hle, _ => by omega
  | rounds + 1, rounds' + 1, p, x, hle, h => by
    rw [loop_succ] at h ⊢
    split at h
    · rename_i hs
      rw [if_pos hs]
      exact h
    · rename_i hs
      rw [if_neg hs]
      split at h
      · exact h
      · exact h
      · rename_i p₁ hl
        split at h
        · exact h
        · exact loop_mono (Nat.le_of_succ_le_succ hle) h

theorem solveWithin_mono {x : Run × Except Fault Outcome} (hle : rounds ≤ rounds')
    (h : t.solveWithin rounds r = some x) : t.solveWithin rounds' r = some x := by
  rw [solveWithin_eq] at h ⊢
  split at h
  · exact h
  · split at h
    · cases h
    · rename_i hloop
      rw [loop_mono hle hloop]
      exact h
    · rename_i hloop
      rw [loop_mono hle hloop]
      exact h

end Search.Task

namespace Solver

/-- The seed is a natural number. -/
def Seeded (s : Solver) : Prop := ∃ n : Nat, s.settings.seed = .int n

/-- Neither the iterations nor the time are limited. -/
def Uncapped (s : Solver) : Prop := s.settings.maxIterations = .null ∧ s.settings.timeout = .null

/-- The solver comes to the outcome, and is then what `s'` says, within some number of rounds. -/
def Returns (s : Solver) (w : Surroundings) (s' : Solver) (o : Outcome) : Prop :=
  ∃ rounds, s.solveWithin w rounds = some (s', .ok o)

section
variable {s s' s₁ s₂ : Solver} {w : Surroundings} {o o₁ o₂ : Outcome} {rounds : Nat}

theorem solveWithin_ok_iff : s.solveWithin w rounds = some (s', .ok o) ↔
    ∃ r', (s.task w).solveWithin rounds s.run = some (r', .ok o) ∧ s' = { s with run := r' } := by
  unfold solveWithin
  rw [Option.map_eq_some_iff]
  constructor
  · rintro ⟨⟨r', x⟩, hx, hd⟩
    cases x with
    | error e => cases hd
    | ok o' =>
      cases hd
      exact ⟨r', hx, rfl⟩
  · rintro ⟨r', hr, rfl⟩
    exact ⟨(r', .ok o), hr, rfl⟩

/-- **At most one outcome** is returned, however many rounds are granted. -/
theorem Returns.unique (h₁ : s.Returns w s₁ o₁) (h₂ : s.Returns w s₂ o₂) : s₁ = s₂ ∧ o₁ = o₂ := by
  obtain ⟨m, hm⟩ := h₁
  obtain ⟨n, hn⟩ := h₂
  obtain ⟨r₁, hr₁, rfl⟩ := solveWithin_ok_iff.1 hm
  obtain ⟨r₂, hr₂, rfl⟩ := solveWithin_ok_iff.1 hn
  have h₁ := Task.solveWithin_mono (Nat.le_max_left m n) hr₁
  have h₂ := Task.solveWithin_mono (Nat.le_max_right m n) hr₂
  rw [h₁] at h₂
  cases h₂
  exact ⟨rfl, rfl⟩

/-- A returned outcome is read off the end of a trajectory. -/
theorem Returns.ended (h : s.Returns w s' o) : ∃ q rest, (s.task w).Trajectory s.run (q :: rest) ∧
    (s.task w).Halts (w.clock s.run.readings) q ∧ s'.run.state = q.state ∧
      (s.task w).Ended q.state o := by
  obtain ⟨rounds, hr⟩ := h
  obtain ⟨r', hr', rfl⟩ := solveWithin_ok_iff.1 hr
  exact Task.solveWithin_ended hr'

/-- What comes of a solver is an outcome, or the fault of a test of its limits. -/
theorem solveWithin_cases {g : Random.Generator} {x : Except Failure Outcome} (hm : s.method.Regular)
    (hg : (s.task w).generator = .ok g) (h : s.solveWithin w rounds = some (s', x)) :
    (∃ o, x = .ok o) ∨ ∃ e q rest, x = .error (.ofFault e) ∧ (s.task w).Trajectory s.run (q :: rest) ∧
      (s.task w).Fails (w.clock s.run.readings) q s'.run e := by
  unfold solveWithin at h
  obtain ⟨⟨r', y⟩, hy, hd⟩ := Option.map_eq_some_iff.1 h
  obtain ⟨o, rfl⟩ | ⟨e, q, rest, rfl, htr, hf⟩ := Task.solveWithin_cases hm hg hy
  · cases hd
    exact .inl ⟨o, rfl⟩
  · cases hd
    exact .inr ⟨e, q, rest, rfl, htr, hf⟩

/-- A natural number seeds a generator. -/
theorem generator_of_natural {v : Value} {n : Nat} (h : v = .int n) :
    ∃ g, Random.Generator.ofValue v = .ok g := by
  have hneg : ¬ (n : Int) < 0 := by omega
  rw [h, Random.Generator.ofValue_int, if_neg hneg]
  exact ⟨_, rfl⟩

theorem Seeded.generator (h : s.Seeded) (w : Surroundings) : ∃ g, (s.task w).generator = .ok g := by
  obtain ⟨n, hn⟩ := h
  exact generator_of_natural hn

theorem maxIterations_of_null (h : s.settings.maxIterations = .null) (w : Surroundings) :
    (s.task w).maxIterations = .never := by
  simp only [task, h, Settings.limit]

theorem maxIterations_of_int {M : Int} (h : s.settings.maxIterations = .int M) (w : Surroundings) :
    (s.task w).maxIterations = .at (.int M) := by
  simp only [task, h, Settings.limit, Value.number?]

theorem timeout_of_null (h : s.settings.timeout = .null) (w : Surroundings) :
    (s.task w).timeout = .never := by
  simp only [task, h, Settings.limit]

theorem Uncapped.limits (h : s.Uncapped) (w : Surroundings) :
    (s.task w).maxIterations = .never ∧ (s.task w).timeout = .never :=
  ⟨maxIterations_of_null h.1 w, timeout_of_null h.2 w⟩

/-- Without limits a run ends only when it no longer searches. -/
theorem Uncapped.not_searching (h : s.Uncapped) {started : Float} {q : Run}
    (hq : (s.task w).Halts started q) : q.state.phase ≠ .searching := by
  rcases hq with hq | ⟨p', hl⟩
  · exact hq
  · rw [Task.limited_never (h.limits w).1 (h.limits w).2] at hl
    cases hl

/-- A solver without a cap comes to an answer if its iterations stay within a bound that leaves two of its
rounds. -/
theorem solve?_isSome_of_bound (hm : s.method.Regular) (hs : s.Seeded)
    (hi : s.settings.maxIterations = .null) (w : Surroundings) {bound : Nat}
    (hb : ∀ q rest, (s.task w).Trajectory s.run (q :: rest) → q.state.iterations ≤ bound)
    (hr : bound + 2 ≤ s.method.bound s.formula) : ∃ s' x, s.solve? w = some (s', x) := by
  obtain ⟨g, hg⟩ := hs.generator w
  have hrounds : (s.task w).rounds = s.method.bound s.formula := by
    rw [Task.rounds, maxIterations_of_null hi w]
    rfl
  obtain ⟨r', x, hx⟩ := Task.solveWithin_answers (t := s.task w) (r := s.run) hm hg hb hr
  exact ⟨_, _, by rw [solve?, hrounds, solveWithin, hx]; rfl⟩

/-- Whatever comes of a solver without limits is an outcome. -/
theorem Uncapped.answer_ok {x : Except Failure Outcome} (h : s.Uncapped) (hm : s.method.Regular)
    (hs : s.Seeded) (hx : s.solveWithin w rounds = some (s', x)) : ∃ o, x = .ok o := by
  obtain ⟨g, hg⟩ := hs.generator w
  obtain ho | ⟨e, q, rest, -, -, hf⟩ := solveWithin_cases hm hg hx
  · exact ho
  · have hq := hf.untested
    rw [Task.limited_never (h.limits w).1 (h.limits w).2] at hq
    cases hq

theorem Uncapped.solve?_isSome (h : s.Uncapped) (hm : s.method.Regular) (hs : s.Seeded)
    (w : Surroundings) {bound : Nat}
    (hb : ∀ q rest, (s.task w).Trajectory s.run (q :: rest) → q.state.iterations ≤ bound)
    (hr : bound + 2 ≤ s.method.bound s.formula) : ∃ s' o, s.solve? w = some (s', .ok o) := by
  obtain ⟨s', x, hx⟩ := solve?_isSome_of_bound hm hs h.1 w hb hr
  obtain ⟨o, rfl⟩ := h.answer_ok hm hs hx
  exact ⟨s', o, hx⟩

end

end Solver

/-! ## A small solver -/

/-- One of the first two variables is true and one is false; the third is free. -/
def Formula.oneOfTwo : Formula where
  numVariables := 3
  clauses := [⟨[⟨0, false⟩, ⟨1, false⟩], by decide⟩, ⟨[⟨0, true⟩, ⟨1, true⟩], by decide⟩]
  comments := []
  inRange := by decide

/-- A solver that starts on that formula with no variable assigned, and without limits. -/
def Solver.oneOfTwo (m : Method) : Solver where
  method := m
  formula := .oneOfTwo
  settings := ⟨.int 7, .text "unassigned", .null, .null⟩
  run := ⟨.initial .oneOfTwo (.ofWords [7]), 0, []⟩

/-- A clock that stands still, and no record. -/
def Surroundings.still : Surroundings := ⟨fun _ => 0, false⟩

end LocalSat
