import LocalSat.Proofs.Limits

/-!
# Runs do not fail

Along the trajectories of a regular method whose limits are numbers, every call that a run makes succeeds:
the launch, the tests of the limits, the rounds and the evaluators. The one exception is a limit of too
many digits, which fails a run that comes up to it. So whatever comes of a run is an outcome, if its limits
can be noted (`answer_ok`). A greedy round in particular makes only moves that can be made and taken back
(`Tryable`), and a walk has a variable to draw whenever it draws one (`numVariables_pos`). Main statement:
`solver_never_fails`.
-/

namespace LocalSat

namespace Search

/-! ## What a greedy round does with a move -/

namespace Greedy

open Assignment

/-- The move can be made, looked ahead to, scored, and taken back again. -/
structure Tryable (f : Formula) (a : Assignment) (m : Move) : Prop where
  undone : ∃ b, a.apply m = .ok b ∧ a.fingerprintAfter m = .ok b.fingerprint ∧ b.undo? = some a
  scored : ∃ n, score f a m = .ok n ∧
    a.tentatively m (fun b => (b, f.unsatisfiedCount b.look)) = (a, .ok n)

theorem tryable_of_inRange {f : Formula} {a : Assignment} {m : Move} (ha : a.size = f.numVariables)
    (h0 : 0 ≤ m.var) (h : m.var < f.numVariables) : Tryable f a m := by
  have hb := apply_eq h0 (by rw [ha]; exact h)
  have hn := score_eq ha hb
  refine ⟨⟨_, hb, fingerprintAfter_of_apply hb, undo?_apply hb⟩, _, hn, ?_⟩
  simp only [score, hb] at hn
  rw [tentatively_of_apply hb, hn]
  rfl

/-- Every call of a greedy step on the formula and the assignment succeeds. -/
structure Unhindered (f : Formula) (a : Assignment) : Prop where
  candidates : ∃ is, f.candidates a.look = .ok is ∧ ∀ i ∈ is, ∃ ms, a.flips i = .ok ms
  moves : ∃ ms, candidateMoves f a = .ok ms ∧ ∀ m ∈ ms, Tryable f a m
  selection : ∀ ms closed, candidateMoves f a = .ok ms → ∃ choice, selectMove f closed a ms = .ok choice

theorem flips_of_flipsOf {a : Assignment} : ∀ {is : List Int} {ms : List Move}, flipsOf a is = .ok ms →
    ∀ i ∈ is, ∃ ms, a.flips i = .ok ms
  | [], _, _ => by simp
  | i :: is, ms, h => by
    unfold flipsOf at h
    split at h
    · cases h
    · rename_i hd hfl
      cases hr : flipsOf a is with
      | error e =>
        rw [hr] at h
        cases h
      | ok rest =>
        intro j hj
        rcases List.mem_cons.1 hj with rfl | hj
        · exact ⟨hd, hfl⟩
        · exact flips_of_flipsOf hr j hj

theorem unhindered {f : Formula} {a : Assignment} (ha : a.size = f.numVariables) : Unhindered f a := by
  obtain ⟨ms, hms, hmem⟩ := candidateMoves_eq ha
  have htry : ∀ m ∈ ms, Tryable f a m := by
    intro m hm
    obtain ⟨h0, hlt⟩ := Formula.vars_inRange ((hmem m).1 hm).var_mem
    exact tryable_of_inRange ha h0 hlt
  refine ⟨?_, ⟨ms, hms, htry⟩, fun ms' closed hms' => ?_⟩
  · unfold candidateMoves at hms
    split at hms
    · cases hms
    · rename_i is his
      exact ⟨is, his, flips_of_flipsOf hms⟩
  · rw [hms] at hms'
    cases hms'
    have happly : ∀ m ∈ ms, ∃ b, a.apply m = .ok b := by
      intro m hm
      obtain ⟨b, hb, -⟩ := (htry m hm).undone
      exact ⟨b, hb⟩
    obtain ⟨choice, hsel, -⟩ := selectMove_eq closed ha happly
    exact ⟨choice, hsel⟩

end Greedy

/-- Every evaluator of the formula has an answer for the assignment. -/
structure Evaluable (f : Formula) (a : Assignment) : Prop where
  isSatisfied : ∃ b, f.isSatisfied a.look = .ok b
  satisfied : ∃ n, f.satisfiedCount a.look = .ok n
  unsatisfied : ∃ n, f.unsatisfiedCount a.look = .ok n

theorem evaluable {f : Formula} {a : Assignment} (ha : a.size = f.numVariables) : Evaluable f a :=
  ⟨⟨_, isSatisfied_eq (reads_look ha)⟩, ⟨_, satisfiedCount_eq (reads_look ha)⟩,
    ⟨_, unsatisfiedCount_eq (reads_look ha)⟩⟩

end Search

namespace Solver

open Search

/-! ## Solvers -/

/-- The limits are numbers, where they are set at all. -/
structure Numeric (s : Solver) : Prop where
  maxIterations : s.settings.maxIterations = .null ∨ ∃ n, s.settings.maxIterations.number? = some n
  timeout : s.settings.timeout = .null ∨ ∃ n, s.settings.timeout.number? = some n

theorem comparable_of_number? {v : Value} (h : v = .null ∨ ∃ n, v.number? = some n) :
    (Settings.limit v).Comparable := by
  intro kind
  rcases h with rfl | ⟨n, hn⟩
  · simp [Settings.limit]
  · cases v <;> simp_all [Settings.limit, Value.number?]

/-- A limit that can be printed can be noted. -/
theorem printable_limit {v : Value} (h : v.printable = true) : (Settings.limit v).Printable := by
  cases v with
  | int n => exact Value.printable_int.1 h
  | bool b => cases b <;> decide +kernel
  | null | real | text | list | mapping => trivial

/-- The limits can be noted: where they are integers, they have no more digits than are printed. -/
structure Notable (s : Solver) : Prop where
  maxIterations : (Settings.limit s.settings.maxIterations).Printable
  timeout : (Settings.limit s.settings.timeout).Printable

section
variable {s s' : Solver} {w : Surroundings} {rounds : Nat} {x : Except Failure Outcome}

/-- What comes of a solver whose seed is a natural number and whose limits are numbers. -/
theorem answer_cases (hm : s.method = Greedy.method ∨ s.method = Walk.method) (hs : s.Seeded)
    (hl : s.Numeric) (h : s.solveWithin w rounds = some (s', x)) :
    (∃ o, x = .ok o) ∨ x = .error .tooLong ∧ ¬ s.Notable := by
  obtain ⟨g, hg⟩ := hs.generator w
  obtain ho | ⟨e, q, rest, rfl, -, hf⟩ := solveWithin_cases (regular_of_method hm) hg h
  · exact .inl ho
  · obtain ⟨rfl, hlong⟩ := hf.tooLong (comparable_of_number? hl.maxIterations)
      (comparable_of_number? hl.timeout)
    exact .inr ⟨rfl, fun hn => hlong ⟨hn.maxIterations, hn.timeout⟩⟩

/-- **Whatever comes of a solver is an outcome**, if its seed is a natural number and its limits are
numbers that can be noted. -/
theorem answer_ok (hm : s.method = Greedy.method ∨ s.method = Walk.method) (hs : s.Seeded)
    (hl : s.Numeric) (hn : s.Notable) (h : s.solveWithin w rounds = some (s', x)) : ∃ o, x = .ok o := by
  obtain ho | ⟨-, hlong⟩ := answer_cases hm hs hl h
  · exact ho
  · exact absurd hn hlong

end

/-- What holds of the runs of a solver in which no call fails but for the digits of a limit. -/
structure Safe (s : Solver) (w : Surroundings) : Prop where
  /-- Whatever comes of a run is an outcome, unless it came up to a limit that cannot be noted. -/
  answered : ∀ rounds s' x, s.solveWithin w rounds = some (s', x) →
    (∃ o, x = .ok o) ∨ x = .error .tooLong ∧ ¬ s.Notable
  /-- Every greedy run without a cap and every capped run comes to an answer, which is an outcome if the
  limits can be noted. -/
  returned : (s.method = Greedy.method ∧ s.settings.maxIterations = .null) ∨
    (∃ M : Int, s.settings.maxIterations = .int M) →
    ∃ s' x, s.solve? w = some (s', x) ∧ (s.Notable → ∃ o, x = .ok o)
  launched : ∃ r, (s.task w).launch s.run = (r, .ok ())
  evaluated : ∀ q rest, (s.task w).Trajectory s.run (q :: rest) → Evaluable s.formula q.state.assignment
  limited : ∀ q rest, (s.task w).Trajectory s.run (q :: rest) → ∀ started,
    (∃ q' b, (s.task w).limited started q = (q', .ok b)) ∨
      (∃ q', (s.task w).limited started q = (q', .error .tooLong)) ∧ ¬ s.Notable
  /-- A run that searches comes through one more step and the scoring after it. -/
  stepped : ∀ q rest, (s.task w).Trajectory s.run (q :: rest) → q.state.phase = .searching →
    (∃ s', s.method.step s.formula q.state = (s', .ok ())) ∧ ∃ q', (s.task w).round q = (q', .ok ())
  /-- Nothing is taken back at the start, and nothing is out of range in a greedy step. -/
  guided : ∀ q rest, (s.task w).Trajectory s.run (q :: rest) → s.method = Greedy.method →
    Greedy.Unhindered s.formula q.state.assignment
  /-- Where a walk draws a variable there is one, and any one that it draws can be set. -/
  drawn : ∀ q rest, (s.task w).Trajectory s.run (q :: rest) → s.method = Walk.method →
    q.state.phase = .searching → 0 < s.formula.numVariables ∧
      ∀ i < s.formula.numVariables, ∀ v, ∃ a, q.state.assignment.apply ⟨(i : Nat), v⟩ = .ok a

/-- **A solver never fails** whose seed is a natural number and whose limits are numbers that can be noted:
not when it has come through any other runs before, nor by any clock. A limit of too many digits fails the
run that comes up to it, and nothing else does. -/
theorem solver_never_fails {s : Solver} (hm : s.method = Greedy.method ∨ s.method = Walk.method)
    (hs : s.Seeded) (hl : s.Numeric) (w : Surroundings) : s.Safe w := by
  have hreg := regular_of_method hm
  obtain ⟨g, hg⟩ := hs.generator w
  have hi : (s.task w).maxIterations.Comparable := comparable_of_number? hl.maxIterations
  have ht : (s.task w).timeout.Comparable := comparable_of_number? hl.timeout
  have hscored : ∀ q rest, (s.task w).Trajectory s.run (q :: rest) → Scored s.formula q.state :=
    fun q rest htr => htr.scored hreg q List.mem_cons_self
  refine ⟨?answered, ?returned, ?launched, ?evaluated, ?limited, ?stepped, ?guided, ?drawn⟩
  case answered => exact fun rounds s' x => answer_cases hm hs hl
  case returned =>
    intro hend
    have hsome : ∃ s' x, s.solve? w = some (s', x) := by
      rcases hend with ⟨hgreedy, hn⟩ | ⟨M, hM⟩
      · exact Greedy.uncapped_solve?_isSome hgreedy hs hn w
      · exact solve?_isSome_of_cap hreg hs hM w
    obtain ⟨s', x, hx⟩ := hsome
    exact ⟨s', x, hx, fun hn => answer_ok hm hs hl hn hx⟩
  case launched =>
    obtain ⟨r₀, h, -⟩ := Task.launch_eq hg s.run
    exact ⟨r₀, h⟩
  case evaluated => exact fun q rest htr => evaluable (hscored q rest htr).size
  case limited =>
    intro q rest htr started
    obtain ⟨q', x, hx, ⟨b, rfl⟩ | rfl⟩ := Task.limited_answers hi ht started q
    · exact .inl ⟨q', b, hx⟩
    · refine .inr ⟨⟨q', hx⟩, fun hn => ?_⟩
      obtain ⟨-, hl⟩ | ⟨-, -, hl⟩ := Task.limited_reached hx (.inr rfl)
      · cases hl.2 hn.maxIterations
      · cases hl.2 hn.timeout
  case stepped =>
    intro q rest htr hsearch
    obtain ⟨q', s', hq, hstep, -⟩ := Task.round_eq (t := s.task w) hreg (hscored q rest htr) hsearch
    exact ⟨⟨s', hstep⟩, q', hq⟩
  case guided => exact fun q rest htr _ => Greedy.unhindered (hscored q rest htr).size
  case drawn =>
    intro q rest htr _ hsearch
    have hsc := hscored q rest htr
    refine ⟨Walk.numVariables_pos (hsc.not_solves hsearch), fun i hi v => ?_⟩
    exact ⟨_, Assignment.apply_eq (m := ⟨(i : Nat), v⟩) (by simp) (by rw [hsc.size]; simpa using hi)⟩

theorem solver_never_fails_walk : ∃ s' o,
    ({ oneOfTwo Walk.method with
        settings := ⟨.int 7, .text "unassigned", .int 3, .real 2.5⟩ } : Solver).solve? .still =
      some (s', .ok o) := by
  have h := solver_never_fails
    (s := { oneOfTwo Walk.method with settings := ⟨.int 7, .text "unassigned", .int 3, .real 2.5⟩ })
    (Or.inr rfl) ⟨7, rfl⟩ ⟨Or.inr ⟨_, rfl⟩, Or.inr ⟨_, rfl⟩⟩ .still
  obtain ⟨s', x, hx, hok⟩ := h.returned (Or.inr ⟨3, rfl⟩)
  obtain ⟨o, rfl⟩ := hok ⟨(by decide +kernel : Text.Printable 3), trivial⟩
  exact ⟨s', o, hx⟩

/-- A cap that a run has come up to at its start fails it if it has too many digits. -/
theorem balks_oneOfTwo : (oneOfTwo Greedy.method).Balks (-Text.beyondDigits) := by
  obtain ⟨g, hg⟩ := Seeded.generator (s := oneOfTwo Greedy.method) ⟨7, rfl⟩ .still
  have hcut := cutOff_of_searching (M := -Text.beyondDigits) (Greedy.regular rfl) ⟨7, rfl⟩ hg
    fun _ _ _ n _ hn _ => by
      obtain rfl : n = 0 := by omega
      rfl
  exact hcut.balks Text.not_printable_neg_beyondDigits

theorem long_cap_fails : ∃ s', ({ oneOfTwo Greedy.method with
    settings := ⟨.int 7, .text "unassigned", .int (-Text.beyondDigits), .null⟩ } : Solver).solve? .still =
      some (s', .error .tooLong) := balks_oneOfTwo .still

end Solver

end LocalSat
