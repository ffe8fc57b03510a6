import LocalSat.Proofs.Satisfaction
import LocalSat.Search.Run

/-!
# The states that a run passes through

A trajectory is the list of what a run is like between its rounds, the latest first (`Task.Trajectory`).
Each answer of `solveWithin` reads off the end of a trajectory, whatever number of rounds was granted
(`solveWithin_ended`), so what holds along trajectories holds of every run that ends. A method is
`Regular` when its step, on a state that searches and is falsified, succeeds and either goes on or gives
up where it stands. Along the trajectories of a regular method a state is marked as solved, and has a
best count of zero, exactly when its assignment makes the formula true (`Trajectory.scored`). A run of
such a method comes to an answer if its iterations are bounded (`solveWithin_answers`), and its answer is
an outcome unless the test of its limits fails (`solveWithin_cases`).
-/

namespace LocalSat.Search

/-! ## Scoring -/

/-- The number of clauses that the state's assignment leaves untrue. -/
def State.cost (s : State) (f : Formula) : Nat := (f.falsified (valuation s.assignment.values)).length

/-- Whether the state's assignment makes the formula true. -/
def State.Solves (s : State) (f : Formula) : Prop := f.Holds (valuation s.assignment.values)

theorem State.cost_eq_zero_iff {s : State} {f : Formula} : s.cost f = 0 ↔ s.Solves f := by
  rw [State.cost, List.length_eq_zero_iff, falsified_eq_nil_iff, State.Solves]

/-- The state after its assignment has been scored. -/
def State.rescored (s : State) (f : Formula) : State :=
  { s with
    best := min s.best (s.cost f)
    phase := if s.cost f = 0 then .solved else s.phase }

theorem State.rescored_ne_exhausted {s : State} (f : Formula) (h : s.phase = .searching) :
    (s.rescored f).phase ≠ .exhausted := by
  show (if s.cost f = 0 then Phase.solved else s.phase) ≠ .exhausted
  rw [h]
  split <;> decide

/-- The state is of the formula's length and its score is up to date. -/
structure Scored (f : Formula) (s : State) : Prop where
  size : s.assignment.size = f.numVariables
  solved_iff : s.phase = .solved ↔ s.Solves f
  best_iff : s.best = 0 ↔ s.Solves f

theorem Scored.not_solves {f : Formula} {s : State} (h : Scored f s) (hs : s.phase = .searching) :
    ¬ s.Solves f := by
  rw [← h.solved_iff, hs]
  simp

/-! ## Regular methods -/

/-- What a step changes and keeps: it goes on, or gives up where it stands. -/
structure Kept (s s' : State) : Prop where
  size : s'.assignment.size = s.assignment.size
  best : s'.best = s.best
  goes : (s'.phase = .searching ∧ s'.iterations = s.iterations + 1) ∨
    (s'.phase = .exhausted ∧ s'.iterations = s.iterations ∧ s'.assignment = s.assignment)

/-- The method's step succeeds on every falsified state that searches, and keeps what it should. -/
def Method.Regular (m : Method) : Prop :=
  ∀ (f : Formula) (s : State), s.assignment.size = f.numVariables → s.phase = .searching →
    ¬ s.Solves f → ∃ s', m.step f s = (s', .ok ()) ∧ Kept s s'

/-- The status that a run ends with when it comes to a stop in the phase. -/
def Phase.status : Phase → Status
  | .searching => .timeout
  | .solved => .satisfiable
  | .exhausted => .exhausted

/-- The limit is of a kind that can be compared with what it limits. -/
def Limit.Comparable (l : Limit) : Prop := ∀ kind, l ≠ .incomparable kind

theorem Limit.reachedBy_ne_tooLong (l : Limit) (n : Nat) : l.reachedBy n ≠ .error .tooLong := by
  cases l <;> simp [Limit.reachedBy]

theorem Limit.reachedIn_ne_tooLong (l : Limit) (x : Float) : l.reachedIn x ≠ .error .tooLong := by
  cases l <;> simp [Limit.reachedIn]

theorem Limit.Comparable.reachedBy {l : Limit} (h : l.Comparable) (n : Nat) :
    ∃ b, l.reachedBy n = .ok b := by
  cases l with
  | never => exact ⟨_, rfl⟩
  | «at» m => exact ⟨_, rfl⟩
  | incomparable kind => exact absurd rfl (h kind)

theorem Limit.Comparable.reachedIn {l : Limit} (h : l.Comparable) (x : Float) :
    ∃ b, l.reachedIn x = .ok b := by
  cases l with
  | never => exact ⟨_, rfl⟩
  | «at» m => exact ⟨_, rfl⟩
  | incomparable kind => exact absurd rfl (h kind)

namespace Task

variable {t : Task} {g : Random.Generator} {r r₀ r' p p' q : Run} {rest rs : List Run}

theorem unsatisfied_eq {s : State} (h : s.assignment.size = t.formula.numVariables) :
    t.unsatisfied s = .ok (s.cost t.formula) := by
  rw [unsatisfied, unsatisfiedCount_eq (reads_look h)]
  rfl

/-- The run after its assignment has been scored. -/
def rescoring (t : Task) (p : Run) : Run :=
  { (if p.state.cost t.formula < p.state.best then t.improve p (p.state.cost t.formula) else p) with
    state := p.state.rescored t.formula }

theorem update_run (h : p.state.assignment.size = t.formula.numVariables) :
    t.update p = (t.rescoring p, .ok (p.state.cost t.formula)) := by
  unfold update rescoring
  rw [unsatisfied_eq h]
  by_cases hb : p.state.cost t.formula < p.state.best
  · simp only [hb, if_true, improve, State.rescored, Nat.min_eq_right (Nat.le_of_lt hb)]
  · simp only [hb, if_false, State.rescored, Nat.min_eq_left (Nat.le_of_not_lt hb)]

/-- A round of a regular method is its step, and a new score if the search goes on. -/
theorem round_run (hm : t.method.Regular) (h : Scored t.formula p.state)
    (hs : p.state.phase = .searching) :
    ∃ s', t.method.step t.formula p.state = (s', .ok ()) ∧ Kept p.state s' ∧
      t.round p = (if s'.phase = .searching then t.rescoring { p with state := s' }
        else { p with state := s' }, .ok ()) := by
  obtain ⟨s', hstep, hk⟩ := hm t.formula p.state h.size hs (h.not_solves hs)
  refine ⟨s', hstep, hk, ?_⟩
  unfold round
  rw [hstep]
  by_cases hp : s'.phase = .searching
  · have hu := update_run (t := t) (p := { p with state := s' }) (hk.size.trans h.size)
    simp only [hp, if_true, hu]
    rfl
  · simp only [hp, if_false]

theorem round_eq (hm : t.method.Regular) (h : Scored t.formula p.state)
    (hs : p.state.phase = .searching) :
    ∃ q s', t.round p = (q, .ok ()) ∧ t.method.step t.formula p.state = (s', .ok ()) ∧
      Kept p.state s' ∧ q.state = if s'.phase = .searching then s'.rescored t.formula else s' := by
  obtain ⟨s', hstep, hk, hr⟩ := round_run hm h hs
  refine ⟨_, s', hr, hstep, hk, ?_⟩
  by_cases hp : s'.phase = .searching
  · simp only [hp, if_true, rescoring]
  · simp only [hp, if_false]

theorem scored_rescored {f : Formula} {s : State} (h : s.assignment.size = f.numVariables)
    (hp : s.phase = .searching) (hb : s.best = 0 → s.Solves f) : Scored f (s.rescored f) := by
  have hz : s.cost f = 0 ↔ (s.rescored f).Solves f := State.cost_eq_zero_iff
  rw [← State.cost_eq_zero_iff] at hb
  refine ⟨h, ?_, ?_⟩
  · rw [← hz]
    by_cases hc : s.cost f = 0
    · simp [State.rescored, hc]
    · simp [State.rescored, hc, hp]
  · rw [← hz]
    simp only [State.rescored]
    omega

theorem scored_round (hm : t.method.Regular) (h : Scored t.formula p.state)
    (hs : p.state.phase = .searching) (hr : t.round p = (q, .ok ())) : Scored t.formula q.state := by
  obtain ⟨q', s', hq, -, hk, hqs⟩ := round_eq hm h hs
  rw [hr] at hq
  cases hq
  have hb : s'.best ≠ 0 := by
    rw [hk.best, ne_eq, h.best_iff]
    exact h.not_solves hs
  rw [hqs]
  rcases hk.goes with ⟨hp, -⟩ | ⟨hp, -, ha⟩
  · rw [if_pos hp]
    exact scored_rescored (hk.size.trans h.size) hp fun h0 => absurd h0 hb
  · have hf : ¬ s'.Solves t.formula := by
      rw [State.Solves, ha]
      exact h.not_solves hs
    rw [if_neg (by rw [hp]; decide)]
    refine ⟨hk.size.trans h.size, ?_, ?_⟩
    · simp [hp, hf]
    · simp [hb, hf]

/-! ## Starting -/

/-- The state that a run starts its rounds from. -/
structure Fresh (t : Task) (g : Random.Generator) (s : State) : Prop where
  assignment : s.assignment = (t.startValues g).1
  scored : Scored t.formula s
  phase : s.phase ≠ .exhausted
  closed : s.closed = ∅
  iterations : s.iterations = 0
  moves : s.moves = 0
  backtracks : s.backtracks = 0

theorem size_startValues (t : Task) (g : Random.Generator) :
    (t.startValues g).1.size = t.formula.numVariables := by
  unfold startValues
  cases t.start with
  | unassigned => simp [Assignment.size, Assignment.unassigned]
  | random => simp [Assignment.size, Assignment.ofBools, Random.Generator.length_coins]

theorem history_startValues (t : Task) (g : Random.Generator) : (t.startValues g).1.history = [] := by
  unfold startValues
  cases t.start <;> rfl

/-- The state that a run begins its rounds in, if it is launched from the state `s`. -/
def opening (t : Task) (g : Random.Generator) (s : State) : State :=
  let s : State := { s with
    runs := s.runs + 1, closed := ∅, moves := 0, backtracks := 0, iterations := 0,
    generator := (t.startValues g).2, assignment := (t.startValues g).1, phase := .searching }
  ({ s with best := s.cost t.formula } : State).rescored t.formula

theorem fresh_opening (t : Task) (g : Random.Generator) (s : State) : Fresh t g (t.opening g s) where
  assignment := rfl
  scored := scored_rescored (size_startValues t g) rfl State.cost_eq_zero_iff.1
  phase := State.rescored_ne_exhausted t.formula rfl
  closed := rfl
  iterations := rfl
  moves := rfl
  backtracks := rfl

theorem launch_run (hg : t.generator = .ok g) (r : Run) :
    t.launch r = (⟨t.opening g r.state, r.readings + 1, r.notices⟩, .ok ()) := by
  have hsize := size_startValues t g
  let s : State := { r.state with
    runs := r.state.runs + 1, closed := ∅, moves := 0, backtracks := 0, iterations := 0,
    generator := (t.startValues g).2, assignment := (t.startValues g).1, phase := .searching }
  have hu : t.unsatisfied s = .ok (s.cost t.formula) := unsatisfied_eq hsize
  have hq := update_run (t := t)
    (p := ⟨{ s with best := s.cost t.formula }, r.readings + 1, r.notices⟩) hsize
  -- the best count is the start's own, which is no improvement
  have hbest : ¬ ({ s with best := s.cost t.formula } : State).cost t.formula < s.cost t.formula :=
    Nat.lt_irrefl (s.cost t.formula)
  rw [rescoring, if_neg hbest] at hq
  unfold launch reset
  rw [hg]
  simp only
  rw [hu]
  simp only
  rw [hq]
  rfl

theorem launch_opening (hg : t.generator = .ok g) (r : Run) :
    ∃ r₀, t.launch r = (r₀, .ok ()) ∧ r₀.state = t.opening g r.state :=
  ⟨_, launch_run hg r, rfl⟩

theorem launch_eq (hg : t.generator = .ok g) (r : Run) :
    ∃ r₀, t.launch r = (r₀, .ok ()) ∧ Fresh t g r₀.state := by
  obtain ⟨r₀, hl, hs⟩ := launch_opening hg r
  exact ⟨r₀, hl, hs ▸ fresh_opening t g r.state⟩

theorem generator_of_launch (h : t.launch r = (r₀, .ok ())) : ∃ g, t.generator = .ok g := by
  cases hg : t.generator with
  | ok g => exact ⟨g, rfl⟩
  | error e =>
    unfold launch reset at h
    rw [hg] at h
    cases h

theorem fresh_of_launch (hg : t.generator = .ok g) (h : t.launch r = (r₀, .ok ())) :
    Fresh t g r₀.state := by
  obtain ⟨q, hq, hf⟩ := launch_eq hg r
  rw [h] at hq
  cases hq
  exact hf

/-! ## Trajectories -/

/-- What a run passes through between its rounds, the latest first. -/
inductive Trajectory (t : Task) (r : Run) : List Run → Prop
  | start {r₀ : Run} (launched : t.launch r = (r₀, .ok ())) : Trajectory t r [r₀]
  | next {p p' q : Run} {rest : List Run} (before : Trajectory t r (p :: rest))
      (searching : p.state.phase = .searching)
      (unlimited : t.limited (t.clock r.readings) p = (p', .ok false))
      (made : t.round p' = (q, .ok ())) : Trajectory t r (q :: p :: rest)

theorem Trajectory.launched (h : Trajectory t r rs) : ∃ r₀, t.launch r = (r₀, .ok ()) := by
  induction h with
  | start hl => exact ⟨_, hl⟩
  | next _ _ _ _ ih => exact ih

/-- A trajectory begins with the run as it was launched. -/
theorem Trajectory.getLast?_eq (hl : t.launch r = (r₀, .ok ())) : ∀ {rs : List Run},
    Trajectory t r rs → rs.getLast? = some r₀
  | [], h => by cases h
  | [q], h => by
    cases h with
    | start h' =>
      rw [hl] at h'
      cases h'
      rfl
  | q :: p :: rest, h => by
    cases h with
    | next hb _ _ _ =>
      rw [List.getLast?_cons_cons]
      exact Trajectory.getLast?_eq hl hb

theorem stop_state (r : Run) (l : Limit) (n : Notice) : (stop r l n).1.state = r.state := by
  unfold stop
  split <;> rfl

/-- Testing the limits leaves the state alone. -/
theorem limited_state {started : Float} {x : Except Fault Bool} (h : t.limited started p = (q, x)) :
    q.state = p.state := by
  have hq : q = (t.limited started p).1 := by rw [h]
  rw [hq]
  unfold limited
  split
  · rfl
  · exact stop_state p t.maxIterations .iterationLimit
  · split
    · rfl
    · simp only
      split
      · rfl
      · exact stop_state _ t.timeout .timeLimit
      · rfl

theorem Trajectory.scored (hm : t.method.Regular) (h : Trajectory t r rs) :
    ∀ p ∈ rs, Scored t.formula p.state := by
  induction h with
  | start hl =>
    obtain ⟨g, hg⟩ := generator_of_launch hl
    intro p hp
    rw [List.mem_singleton] at hp
    subst hp
    exact (fresh_of_launch hg hl).scored
  | @next p p' q rest _ hs hu hr ih =>
    have he : p'.state = p.state := limited_state hu
    intro x hx
    rcases List.mem_cons.1 hx with rfl | hx
    · exact scored_round hm (by rw [he]; exact ih p List.mem_cons_self) (by rw [he]; exact hs) hr
    · exact ih x hx

/-- What the latest round of a trajectory did. -/
theorem Trajectory.latest (hm : t.method.Regular) (h : Trajectory t r (q :: p :: rest)) :
    ∃ s', Trajectory t r (p :: rest) ∧ p.state.phase = .searching ∧
      t.method.step t.formula p.state = (s', .ok ()) ∧ Kept p.state s' ∧
      q.state = if s'.phase = .searching then s'.rescored t.formula else s' := by
  cases h with
  | next hb hs hu hr =>
    have he := limited_state hu
    have hsc := hb.scored hm p List.mem_cons_self
    obtain ⟨q', s', hq, hstep, hk, hqs⟩ := round_eq hm (by rw [he]; exact hsc) (by rw [he]; exact hs)
    rw [hr] at hq
    cases hq
    rw [he] at hstep hk
    exact ⟨s', hb, hs, hstep, hk, hqs⟩

/-- Every round counts as an iteration, but for one that gave up. -/
theorem Trajectory.length_eq (hm : t.method.Regular) : ∀ {rest : List Run} {q : Run},
    Trajectory t r (q :: rest) →
      rest.length = q.state.iterations + if q.state.phase = .exhausted then 1 else 0
  | [], q, h => by
    cases h with
    | start hl =>
      obtain ⟨g, hg⟩ := generator_of_launch hl
      have hf := fresh_of_launch hg hl
      rw [hf.iterations, if_neg hf.phase]
      rfl
  | p :: rest, q, h => by
    obtain ⟨s', hb, hs, -, hk, hq⟩ := h.latest hm
    have ih := Trajectory.length_eq hm hb
    rw [hs, if_neg (by decide)] at ih
    rw [List.length_cons, ih, hq]
    rcases hk.goes with ⟨hp, hn⟩ | ⟨hp, hn, -⟩
    · rw [if_pos hp, if_neg (State.rescored_ne_exhausted t.formula hp)]
      exact hn.symm
    · rw [if_neg (by rw [hp]; decide), if_pos hp, hn]

/-- A run that has not given up has counted every round. -/
theorem Trajectory.length_of_ne (hm : t.method.Regular) (h : Trajectory t r (q :: rest))
    (hq : q.state.phase ≠ .exhausted) : rest.length = q.state.iterations := by
  rw [h.length_eq hm, if_neg hq, Nat.add_zero]

theorem Trajectory.length_of_searching (hm : t.method.Regular) (h : Trajectory t r (q :: rest))
    (hq : q.state.phase = .searching) : rest.length = q.state.iterations :=
  h.length_of_ne hm (by rw [hq]; decide)

/-! ## The loop and the outcome -/

/-- The run has come to where the loop ends: it does not search, or a limit is reached. -/
def Halts (t : Task) (started : Float) (p : Run) : Prop :=
  p.state.phase ≠ .searching ∨ ∃ p', t.limited started p = (p', .ok true)

/-- The loop ends at the run `q`, as `p'` and with the given answer: the run does not search, a limit is
reached and noted, the test of the limits fails, or the next round does. -/
inductive Exits (t : Task) (started : Float) (q : Run) : Run → Except Fault Bool → Prop
  | finished (h : q.state.phase ≠ .searching) : Exits t started q q (.ok false)
  | stopped {p' : Run} (h : q.state.phase = .searching) (limit : t.limited started q = (p', .ok true)) :
      Exits t started q p' (.ok true)
  | untested {p' : Run} {e : Fault} (h : q.state.phase = .searching)
      (limit : t.limited started q = (p', .error e)) : Exits t started q p' (.error e)
  | broken {p₁ p' : Run} {e : Fault} (h : q.state.phase = .searching)
      (limit : t.limited started q = (p₁, .ok false)) (round : t.round p₁ = (p', .error e)) :
      Exits t started q p' (.error e)

theorem Exits.halts {started : Float} {stopped : Bool} (h : Exits t started q p' (.ok stopped)) :
    t.Halts started q := by
  cases h with
  | finished h => exact Or.inl h
  | stopped _ hl => exact Or.inr ⟨_, hl⟩

theorem Exits.state_eq {started : Float} {stopped : Bool} (h : Exits t started q p' (.ok stopped)) :
    p'.state = q.state := by
  cases h with
  | finished _ => rfl
  | stopped _ hl => exact limited_state hl

theorem Exits.stopped_iff {started : Float} {stopped : Bool} (h : Exits t started q p' (.ok stopped)) :
    stopped = true ↔ q.state.phase = .searching := by
  cases h with
  | finished h => simp [h]
  | stopped h _ => simp [h]

/-- A loop ends at the end of a trajectory. -/
theorem loop_exits : ∀ {rounds : Nat} {p : Run} {rest : List Run} {x : Except Fault Bool},
    Trajectory t r (p :: rest) → t.loop (t.clock r.readings) rounds p = some (p', x) →
    ∃ q rest', Trajectory t r (q :: rest') ∧ Exits t (t.clock r.readings) q p' x
  | 0, _, _, _, _, h => by cases h
  | rounds + 1, p, rest, x, ht, h => by
    rw [loop_succ] at h
    by_cases hs : p.state.phase = .searching
    · rw [if_neg (by simpa using hs)] at h
      split at h
      · rename_i p₁ e hl
        cases h
        exact ⟨p, rest, ht, .untested hs hl⟩
      · rename_i p₁ hl
        cases h
        exact ⟨p, rest, ht, .stopped hs hl⟩
      · rename_i p₁ hl
        split at h
        · rename_i q e hr
          cases h
          exact ⟨p, rest, ht, .broken hs hl hr⟩
        · rename_i q hr
          exact loop_exits (.next ht hs hl hr) h
    · rw [if_pos hs] at h
      cases h
      exact ⟨p', rest, ht, .finished hs⟩

/-- What an outcome says about the state that a run ended in. -/
structure Ended (t : Task) (s : State) (o : Outcome) : Prop where
  status : o.status = s.phase.status
  iterations : o.iterations = s.iterations
  model : o.model = if o.status = .satisfiable then some (completion s.assignment) else none
  satisfied : t.formula.satisfiedCount s.assignment.look = .ok o.satisfiedClauses
  total : o.totalClauses = t.formula.size
  counters : o.counters = t.counters s
  method : o.method = t.method.name

theorem status_eq {s : State} {stopped : Bool} (h : stopped = true ↔ s.phase = .searching) :
    status s stopped = s.phase.status := by
  cases hp : s.phase <;> simp [hp] at h <;> simp [status, Phase.status, h, hp]

theorem outcome_ok {started : Float} {stopped : Bool} {o : Outcome}
    (hs : stopped = true ↔ p.state.phase = .searching)
    (h : t.outcome started stopped p = (q, .ok o)) : q.state = p.state ∧ Ended t p.state o := by
  unfold outcome at h
  simp only at h
  split at h
  · cases h
  · rename_i n hn
    cases h
    refine ⟨rfl, ?_⟩
    exact
    { status := status_eq hs
      iterations := rfl
      model := rfl
      satisfied := hn
      total := rfl
      counters := rfl
      method := rfl }

theorem solveWithin_exits {rounds : Nat} {o : Outcome} (h : t.solveWithin rounds r = some (r', .ok o)) :
    ∃ q rest p' stopped, Trajectory t r (q :: rest) ∧ Exits t (t.clock r.readings) q p' (.ok stopped) ∧
      t.outcome (t.clock r.readings) stopped p' = (r', .ok o) := by
  rw [solveWithin_eq] at h
  split at h
  · cases h
  · rename_i r₀ hl
    split at h
    · cases h
    · cases h
    · rename_i p stopped hloop
      obtain ⟨q, rest, ht, he⟩ := loop_exits (.start hl) hloop
      exact ⟨q, rest, p, stopped, ht, he, Option.some.inj h⟩

/-- **Every answer** is read off the end of a trajectory. -/
theorem solveWithin_ended {rounds : Nat} {o : Outcome} (h : t.solveWithin rounds r = some (r', .ok o)) :
    ∃ q rest, Trajectory t r (q :: rest) ∧ t.Halts (t.clock r.readings) q ∧ r'.state = q.state ∧
      Ended t q.state o := by
  obtain ⟨q, rest, p', stopped, ht, hx, ho⟩ := solveWithin_exits h
  obtain ⟨hr, he⟩ := outcome_ok (by rw [hx.state_eq]; exact hx.stopped_iff) ho
  rw [hx.state_eq] at hr he
  exact ⟨q, rest, ht, hx.halts, hr, he⟩

/-! ## Limits that are reached -/

theorem stop_cases (r : Run) (l : Limit) (n : Notice) :
    (l.Printable ∧ stop r l n = ({ r with notices := n :: r.notices }, .ok true)) ∨
      (¬ l.Printable ∧ stop r l n = (r, .error .tooLong)) := by
  unfold stop
  by_cases hl : l.Printable
  · exact .inl ⟨hl, if_pos hl⟩
  · exact .inr ⟨hl, if_neg hl⟩

/-- A test stops a run, or fails for a number of too many digits, only at a limit that is reached; which
of the two it is depends on whether the limit can be printed. -/
theorem limited_reached {started : Float} {x : Except Fault Bool} (h : t.limited started p = (q, x))
    (hx : x = .ok true ∨ x = .error .tooLong) :
    (t.maxIterations.reachedBy p.state.iterations = .ok true ∧
        (x = .ok true ↔ t.maxIterations.Printable)) ∨
      (t.maxIterations.reachedBy p.state.iterations = .ok false ∧ t.timeout ≠ .never ∧
        (x = .ok true ↔ t.timeout.Printable)) := by
  unfold limited at h
  split at h
  · rename_i e he
    cases h
    obtain hx | hx := hx <;> cases hx
    exact absurd he (Limit.reachedBy_ne_tooLong _ _)
  · rename_i he
    refine .inl ⟨he, ?_⟩
    obtain ⟨hl, hs⟩ | ⟨hl, hs⟩ := stop_cases p t.maxIterations .iterationLimit <;>
      rw [hs] at h <;> cases h <;> simp [hl]
  · rename_i he
    split at h
    · cases h
      obtain hx | hx := hx <;> cases hx
    · rename_i hnever
      refine .inr ⟨he, hnever, ?_⟩
      simp only at h
      split at h
      · rename_i e he
        cases h
        obtain hx | hx := hx <;> cases hx
        exact absurd he (Limit.reachedIn_ne_tooLong _ _)
      · obtain ⟨hl, hs⟩ | ⟨hl, hs⟩ :=
          stop_cases { p with readings := p.readings + 1 } t.timeout .timeLimit <;>
          rw [hs] at h <;> cases h <;> simp [hl]
      · cases h
        obtain hx | hx := hx <;> cases hx

/-- Limits that can be compared are tested, and one that is reached is noted or has too many digits. -/
theorem limited_answers (hi : t.maxIterations.Comparable) (ht : t.timeout.Comparable) (started : Float)
    (p : Run) : ∃ q x, t.limited started p = (q, x) ∧ ((∃ b, x = .ok b) ∨ x = .error .tooLong) := by
  obtain ⟨b, hb⟩ := hi.reachedBy p.state.iterations
  unfold limited
  rw [hb]
  cases b with
  | true =>
    obtain ⟨-, hs⟩ | ⟨-, hs⟩ := stop_cases p t.maxIterations .iterationLimit
    · exact ⟨_, _, hs, .inl ⟨true, rfl⟩⟩
    · exact ⟨_, _, hs, .inr rfl⟩
  | false =>
    cases hw : t.timeout with
    | never => exact ⟨_, _, rfl, .inl ⟨false, rfl⟩⟩
    | incomparable kind => exact absurd hw (ht kind)
    | «at» n =>
      obtain ⟨c, hc⟩ := ht.reachedIn (t.clock p.readings - started)
      rw [hw] at hc
      simp only [hc]
      cases c with
      | false => exact ⟨_, _, rfl, .inl ⟨false, rfl⟩⟩
      | true =>
        obtain ⟨-, hs⟩ | ⟨-, hs⟩ := stop_cases { p with readings := p.readings + 1 } (.at n) .timeLimit
        · exact ⟨_, _, hs, .inl ⟨true, rfl⟩⟩
        · exact ⟨_, _, hs, .inr rfl⟩

theorem limited_never (hi : t.maxIterations = .never) (ht : t.timeout = .never) (started : Float)
    (p : Run) : t.limited started p = (p, .ok false) := by
  unfold limited
  rw [hi, ht]
  rfl

/-! ## Runs that end -/

/-- A loop ends whose iterations stay within a bound, if it is given two rounds more. -/
theorem loop_isSome (hm : t.method.Regular) {bound : Nat}
    (hb : ∀ q rest, Trajectory t r (q :: rest) → q.state.iterations ≤ bound) :
    ∀ (rounds : Nat) (p : Run) (rest : List Run), Trajectory t r (p :: rest) →
      bound + 2 ≤ rounds + p.state.iterations ∨ (0 < rounds ∧ p.state.phase ≠ .searching) →
      ∃ p' x, t.loop (t.clock r.readings) rounds p = some (p', x)
  | 0, p, rest, htr, h => by
    have hp := hb p rest htr
    omega
  | rounds + 1, p, rest, htr, h => by
    rw [loop_succ]
    by_cases hs : p.state.phase = .searching
    · rw [if_neg (by simpa using hs)]
      rcases hl : t.limited (t.clock r.readings) p with ⟨p₁, e | _ | _⟩
      · exact ⟨p₁, _, rfl⟩
      · have he := limited_state hl
        have hsc := htr.scored hm p List.mem_cons_self
        obtain ⟨q, s', hq, -, hk, hqs⟩ :=
          round_eq hm (by rw [he]; exact hsc) (by rw [he]; exact hs)
        have htq : Trajectory t r (q :: p :: rest) := .next htr hs hl hq
        simp only [hq]
        refine loop_isSome hm hb rounds q (p :: rest) htq ?_
        have hp := hb p rest htr
        rw [he] at hk
        -- a step goes on and counts, or gives up, which the next test of the phase notices
        rcases hk.goes with ⟨hp', hn⟩ | ⟨hp', -, -⟩
        · left
          rw [hqs, if_pos hp']
          show bound + 2 ≤ rounds + s'.iterations
          rcases h with h | ⟨-, h⟩
          · omega
          · exact absurd hs h
        · right
          rw [hqs, hp']
          refine ⟨?_, by simp [hp']⟩
          rcases h with h | ⟨-, h⟩
          · omega
          · exact absurd hs h
      · exact ⟨p₁, _, rfl⟩
    · rw [if_pos hs]
      exact ⟨p, _, rfl⟩

/-- A run comes to an answer when its iterations stay within a bound and it is given two rounds more. -/
theorem solveWithin_answers (hm : t.method.Regular) (hg : t.generator = .ok g) {bound rounds : Nat}
    (hb : ∀ q rest, Trajectory t r (q :: rest) → q.state.iterations ≤ bound)
    (hr : bound + 2 ≤ rounds) : ∃ r' x, t.solveWithin rounds r = some (r', x) := by
  obtain ⟨r₀, hl, -⟩ := launch_eq hg r
  obtain ⟨p, x, hloop⟩ := loop_isSome hm hb rounds r₀ [] (.start hl) (by omega)
  rw [solveWithin_eq, hl]
  simp only [hloop]
  cases x with
  | error e => exact ⟨p, _, rfl⟩
  | ok stopped => exact ⟨_, _, rfl⟩

/-- The run `q` still searches when a test of its limits fails and leaves it as `p'`. -/
structure Fails (t : Task) (started : Float) (q p' : Run) (e : Fault) : Prop where
  searching : q.state.phase = .searching
  untested : t.limited started q = (p', .error e)

/-- **An answer** is an outcome, or the fault of a test of the limits at the end of a trajectory. -/
theorem solveWithin_cases (hm : t.method.Regular) (hg : t.generator = .ok g) {rounds : Nat}
    {x : Except Fault Outcome} (h : t.solveWithin rounds r = some (r', x)) :
    (∃ o, x = .ok o) ∨
      ∃ e q rest, x = .error e ∧ Trajectory t r (q :: rest) ∧ t.Fails (t.clock r.readings) q r' e := by
  obtain ⟨r₀, hl, -⟩ := launch_eq hg r
  rw [solveWithin_eq, hl] at h
  simp only at h
  split at h
  · cases h
  · rename_i p e hloop
    cases h
    obtain ⟨q, rest, htr, hx⟩ := loop_exits (.start hl) hloop
    refine .inr ⟨e, q, rest, rfl, htr, ?_⟩
    cases hx with
    | untested hs hlim => exact ⟨hs, hlim⟩
    | broken hs hlim hround =>
      have he := limited_state hlim
      have hsc := htr.scored hm q List.mem_cons_self
      obtain ⟨q', s', hq, -⟩ := round_eq hm (by rw [he]; exact hsc) (by rw [he]; exact hs)
      rw [hround] at hq
      cases hq
  · rename_i p stopped hloop
    obtain ⟨q, rest, htr, hx⟩ := loop_exits (.start hl) hloop
    have hsat := satisfiedCount_eq (reads_look (htr.scored hm q List.mem_cons_self).size)
    unfold outcome at h
    simp only [hx.state_eq, hsat] at h
    cases h
    exact .inl ⟨_, rfl⟩

/-- Limits that can be compared fail a run only by the number of their digits. -/
theorem Fails.tooLong {started : Float} {e : Fault} (h : t.Fails started q p' e)
    (hi : t.maxIterations.Comparable) (ht : t.timeout.Comparable) :
    e = .tooLong ∧ ¬ (t.maxIterations.Printable ∧ t.timeout.Printable) := by
  obtain ⟨q₁, x, h₁, ⟨b, rfl⟩ | rfl⟩ := limited_answers hi ht started q
  · rw [h.untested] at h₁
    cases h₁
  · rw [h.untested] at h₁
    cases h₁
    refine ⟨rfl, fun hp => ?_⟩
    obtain ⟨-, hl⟩ | ⟨-, -, hl⟩ := limited_reached h.untested (.inr rfl)
    · cases hl.2 hp.1
    · cases hl.2 hp.2

end Task

end LocalSat.Search
