import LocalSat.Benchmark
import LocalSat.Proofs.Safety

/-!
# Runs of a benchmark

A benchmark ends early only if one of its trials fails. A solver with a natural number for a seed and
numbers for limits that can be noted is `Fit`: nothing comes of it but an outcome, and one does come if it
is `Bounded`. So a benchmark whose trials all have such solvers, and seeds that can be printed, comes to
rows (`comes_run`).
-/

namespace LocalSat

open LocalSat.Search

/-! ## What comes of a computation -/

/-- What comes of the computation, if anything does, has the property; and something comes of it under
the condition. -/
def Comes (total : Prop) {α : Type} (x : Option α) (P : α → Prop) : Prop :=
  (∀ a, x = some a → P a) ∧ (total → ∃ a, x = some a)

section
variable {total : Prop} {α β : Type} {x : Option α} {f : α → Option β} {P : α → Prop} {Q : β → Prop}

theorem Comes.pure {a : α} (h : P a) : Comes total (some a) P := by
  refine ⟨fun b hb => ?_, fun _ => ⟨a, rfl⟩⟩
  cases hb
  exact h

theorem Comes.bind (h : Comes total x P) (hf : ∀ a, P a → Comes total (f a) Q) :
    Comes total (x >>= f) Q := by
  refine ⟨fun b hb => ?_, fun ht => ?_⟩
  · obtain ⟨a, ha, hb⟩ := Option.bind_eq_some_iff.1 hb
    exact (hf a (h.1 a ha)).1 b hb
  · obtain ⟨a, rfl⟩ := h.2 ht
    exact (hf a (h.1 a rfl)).2 ht

theorem Comes.imp {total' : Prop} (h : Comes total x P) (ht : total' → total) : Comes total' x P :=
  ⟨h.1, fun ht' => h.2 (ht ht')⟩

end

namespace Solver

/-- The solver has one of the two methods, a natural number for a seed, and numbers for limits that can be
noted. -/
structure Fit (s : Solver) : Prop where
  method : s.method = Greedy.method ∨ s.method = Walk.method
  seeded : s.Seeded
  numeric : s.Numeric
  notable : s.Notable

/-- The search is greedy without a cap, or it has a cap. -/
def Bounded (s : Solver) : Prop :=
  (s.method = Greedy.method ∧ s.settings.maxIterations = .null) ∨ ∃ M, s.settings.maxIterations = .int M

/-- A fit solver that is bounded comes to an end. -/
theorem Fit.solve?_isSome {s : Solver} (h : s.Fit) (hb : s.Bounded) (w : Surroundings) :
    ∃ x, s.solve? w = some x := by
  rcases hb with ⟨hm, hn⟩ | ⟨M, hM⟩
  · obtain ⟨s', x, hx⟩ := Greedy.uncapped_solve?_isSome hm h.seeded hn w
    exact ⟨_, hx⟩
  · obtain ⟨s', x, hx⟩ := solve?_isSome_of_cap (regular_of_method h.method) h.seeded hM w
    exact ⟨_, hx⟩

/-- Nothing but an outcome comes of fit solvers, and one comes of the bounded ones under the condition. -/
def Served (total : Prop) (solve : Solver → Option (Solver × Except Failure Outcome)) : Prop :=
  ∀ s : Solver, s.Fit → Comes (total ∧ s.Bounded) (solve s) fun x => ∃ o, x.2 = .ok o

end Solver

namespace Benchmark

section
variable {total : Prop} {solve : Solver → Option (Solver × Except Failure Outcome)} {r : Registry}
  {c : Config} {p : Plan} {t : Trial} {f : Formula}

/-! ## Trials -/

theorem mem_trialsOn {index : Nat} (h : t ∈ p.trialsOn index f) :
    t.algorithm ∈ p.algorithms ∧ t.seed ∈ p.seeds := by
  simp only [Plan.trialsOn, List.mem_flatMap, List.mem_map] at h
  obtain ⟨a, ha, s, hs, rfl⟩ := h
  exact ⟨ha, hs⟩

theorem mem_trialsFrom : ∀ {fs : List Formula} {index : Nat}, t ∈ p.trialsFrom index fs →
    t.algorithm ∈ p.algorithms ∧ t.seed ∈ p.seeds
  | [], _, h => by cases h
  | f :: fs, index, h => by
    rcases List.mem_append.1 h with h | h
    · exact mem_trialsOn h
    · exact mem_trialsFrom h

/-- A trial has an algorithm and a seed of the plan. -/
theorem mem_trials (h : t ∈ p.trials) : t.algorithm ∈ p.algorithms ∧ t.seed ∈ p.seeds :=
  mem_trialsFrom h

/-- The solver of the trial can be made, is fit, and is bounded, and the seed can be printed. -/
structure Trial.Ready (t : Trial) (r : Registry) (c : Config) (p : Plan) : Prop where
  solver : ∀ readings, ∃ s,
    Solver.create r c t.formula (.text t.algorithm) (p.options t) readings = .ok s ∧ s.Fit ∧ s.Bounded
  printable : t.seed.printable = true

/-! ## Runs -/

theorem comes_runTrial (hs : Solver.Served total solve) (ht : t.Ready r c p) (s : Progress) :
    Comes total (runTrial solve r c p t s) fun x => x.2 = .ok () := by
  obtain ⟨solver, hcreate, hfit, hbounded⟩ := ht.solver s.readings
  unfold runTrial
  rw [hcreate]
  refine ((hs solver hfit).imp fun h => ⟨h, hbounded⟩).bind fun x hx => ?_
  obtain ⟨solver', y⟩ := x
  obtain ⟨o, rfl⟩ := hx
  simp only [ht.printable, if_true]
  exact .pure rfl

theorem comes_runTrials (hs : Solver.Served total solve) : ∀ {ts : List Trial} (s : Progress),
    (∀ t ∈ ts, t.Ready r c p) → Comes total (runTrials solve r c p ts s) fun x => x.2 = .ok ()
  | [], s, _ => .pure rfl
  | t :: ts, s, h => by
    unfold runTrials
    refine (comes_runTrial hs (h t List.mem_cons_self) s).bind fun x hx => ?_
    obtain ⟨s', y⟩ := x
    obtain rfl : y = .ok () := hx
    exact comes_runTrials hs s' fun t ht => h t (List.mem_cons_of_mem _ ht)

/-- **A benchmark whose trials are ready** comes to rows. -/
theorem comes_run (hs : Solver.Served total solve) (h : ∀ t ∈ p.trials, t.Ready r c p) :
    Comes total (run solve r c p) fun x => ∃ rows, x.2 = .ok rows := by
  unfold run
  refine (comes_runTrials hs ⟨0, [], []⟩ h).bind fun x hx => ?_
  obtain ⟨s, y⟩ := x
  obtain rfl : y = .ok () := hx
  exact .pure ⟨_, rfl⟩

end

end Benchmark

end LocalSat
