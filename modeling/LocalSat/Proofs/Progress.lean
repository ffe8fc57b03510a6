import LocalSat.Proofs.Events.Recording
import LocalSat.Proofs.Independence
import LocalSat.Proofs.Safety

/-!
# What is recorded of a run

A recorded run notes its progress exactly where the count of unsatisfied clauses falls below all that it
was before in the run: its `records`. That is an invariant of trajectories (`Noted`), whether the run
comes to an end or not. If it does, one result follows, and both come to the event files (`Journaled`); a
run that a cap of too many digits fails has no result there (`Abandoned`). Main statement:
`solver_journaled`.
-/

namespace LocalSat

open Search

/-! ## Records of a sequence of counts -/

/-- The indices from one to `n` at which the sequence is below all that it was before. -/
def records (cost : Nat → Nat) (n : Nat) : List Nat :=
  (List.range' 1 n).filter fun i => decide (∀ j < i, cost i < cost j)

section
variable {cost : Nat → Nat} {i n best : Nat}

theorem mem_records : i ∈ records cost n ↔ 1 ≤ i ∧ i ≤ n ∧ ∀ j < i, cost i < cost j := by
  simp only [records, List.mem_filter, List.mem_range'_1, decide_eq_true_eq]
  constructor
  · rintro ⟨⟨h1, hn⟩, h⟩
    exact ⟨h1, by omega, h⟩
  · rintro ⟨h1, hn, h⟩
    exact ⟨⟨h1, by omega⟩, h⟩

theorem pairwise_records (cost : Nat → Nat) (n : Nat) : (records cost n).Pairwise (· < ·) :=
  List.Pairwise.filter _ List.pairwise_lt_range'

/-- The least of the first values of a sequence. -/
structure IsBest (cost : Nat → Nat) (n best : Nat) : Prop where
  le : ∀ j ≤ n, best ≤ cost j
  attained : ∃ j ≤ n, best = cost j

theorem IsBest.lt_iff (h : IsBest cost n best) :
    cost (n + 1) < best ↔ ∀ j < n + 1, cost (n + 1) < cost j := by
  obtain ⟨j, hj, he⟩ := h.attained
  constructor
  · intro hlt k hk
    have := h.le k (by omega)
    omega
  · intro hall
    rw [he]
    exact hall j (by omega)

theorem IsBest.next (h : IsBest cost n best) : IsBest cost (n + 1) (min best (cost (n + 1))) := by
  obtain ⟨j, hj, he⟩ := h.attained
  refine ⟨fun k hk => ?_, ?_⟩
  · rcases Nat.le_succ_iff.1 hk with hk | rfl
    · exact Nat.le_trans (Nat.min_le_left _ _) (h.le k hk)
    · exact Nat.min_le_right _ _
  · by_cases hlt : cost (n + 1) < best
    · exact ⟨n + 1, Nat.le_refl _, by omega⟩
    · exact ⟨j, by omega, by omega⟩

/-- One value more is a record if it is below the least value so far. -/
theorem IsBest.records_succ (h : IsBest cost n best) :
    records cost (n + 1) = records cost n ++ if cost (n + 1) < best then [n + 1] else [] := by
  rw [records, List.range'_1_concat, List.filter_append, Nat.add_comm 1 n, ← records]
  by_cases hlt : cost (n + 1) < best
  · have hrec := h.lt_iff.1 hlt
    rw [if_pos hlt, List.filter_singleton, decide_eq_true hrec]
    rfl
  · have hrec : ¬ ∀ j < n + 1, cost (n + 1) < cost j := fun hall => hlt (h.lt_iff.2 hall)
    rw [if_neg hlt, List.filter_singleton, decide_eq_false hrec]
    rfl

/-- The last of the records is zero exactly when the sequence first comes to zero at its last index. -/
theorem getLast?_records (hpos : ∀ j < n, 0 < cost j) :
    (∃ i, (records cost n).getLast? = some i ∧ cost i = 0) ↔ 1 ≤ n ∧ cost n = 0 := by
  constructor
  · rintro ⟨i, hi, h0⟩
    obtain ⟨h1, hn, -⟩ := mem_records.1 (List.mem_of_getLast? hi)
    have hin : i = n := by
      by_contra hne
      have := hpos i (by omega)
      omega
    subst hin
    exact ⟨h1, h0⟩
  · rintro ⟨h1, h0⟩
    obtain ⟨m, rfl⟩ : ∃ m, n = m + 1 := ⟨n - 1, by omega⟩
    have hrec : ∀ j < m + 1, cost (m + 1) < cost j := fun j hj => by
      have := hpos j hj
      omega
    refine ⟨m + 1, ?_, h0⟩
    rw [records, List.range'_1_concat, List.filter_append, Nat.add_comm 1 m, List.filter_singleton,
      decide_eq_true hrec, Bool.cond_true, List.getLast?_append]
    rfl

end

/-! ## Notices along a trajectory -/

namespace Search.Task

/-- The number of clauses that are unsatisfied after `i` rounds of a run launched from the state `s`. -/
def costs (t : Task) (g : Random.Generator) (s : State) (i : Nat) : Nat :=
  (t.course g s i).cost t.formula

/-- The notices of the progress that a run launched from `r` has made after `n` iterations. -/
def progress (t : Task) (g : Random.Generator) (r : Run) (n : Nat) : List Notice :=
  (records (t.costs g r.state) n).zipIdx.map fun (i, k) =>
    .progress (r.state.runs + 1) i (t.costs g r.state i) t.formula.size (some (r.readings + 1 + k))

/-- What a recorded run launched from `r` has noted when it has come to `q`. -/
structure Noted (t : Task) (g : Random.Generator) (r q : Run) : Prop where
  runs : q.state.runs = r.state.runs + 1
  best : IsBest (t.costs g r.state) q.state.iterations q.state.best
  notices : q.notices = (t.progress g r q.state.iterations).reverse ++ r.notices
  readings : q.readings = r.readings + 1 + (records (t.costs g r.state) q.state.iterations).length

section
variable {t : Task} {g : Random.Generator} {r q p p' : Run} {rest : List Run} {started : Float}

/-- Without a limit on the time a test notes the limit on the iterations, or changes nothing. -/
theorem limited_of_never (ht : t.timeout = .never) {x : Except Fault Bool}
    (h : t.limited started p = (q, x)) :
    (x = .ok true ∧ q = { p with notices := .iterationLimit :: p.notices }) ∨
      (x ≠ .ok true ∧ q = p) := by
  unfold limited at h
  rw [ht] at h
  split at h
  · cases h
    exact .inr ⟨by simp, rfl⟩
  · obtain ⟨-, hs⟩ | ⟨-, hs⟩ := stop_cases p t.maxIterations .iterationLimit
    · rw [hs] at h
      cases h
      exact .inl ⟨rfl, rfl⟩
    · rw [hs] at h
      cases h
      exact .inr ⟨by simp, rfl⟩
  · cases h
    exact .inr ⟨by simp, rfl⟩

theorem noted_opening (t : Task) (g : Random.Generator) (r : Run) :
    Noted t g r ⟨t.opening g r.state, r.readings + 1, r.notices⟩ where
  runs := rfl
  best := by
    refine ⟨fun j hj => ?_, 0, Nat.le_refl 0, Nat.min_self _⟩
    rw [Nat.le_zero.1 hj]
    exact Nat.min_le_left _ _
  notices := rfl
  readings := rfl

theorem notices_rescoring (hrec : t.recorded = true) (p : Run) : (t.rescoring p).notices =
    (if p.state.cost t.formula < p.state.best then
      [.progress p.state.runs p.state.iterations (p.state.cost t.formula) t.formula.size
        (some p.readings)]
    else []) ++ p.notices := by
  unfold rescoring
  split <;> simp [improve, hrec]

theorem readings_rescoring (hrec : t.recorded = true) (p : Run) : (t.rescoring p).readings =
    p.readings + if p.state.cost t.formula < p.state.best then 1 else 0 := by
  unfold rescoring
  split <;> simp [improve, hrec]

/-- A round that goes on notes its new count if that is a record. -/
theorem Noted.rescored {s' : State} (h : Noted t g r p) (hrec : t.recorded = true)
    (hruns : s'.runs = p.state.runs) (hbest : s'.best = p.state.best)
    (hiter : s'.iterations = p.state.iterations + 1)
    (hcost : s'.cost t.formula = t.costs g r.state (p.state.iterations + 1)) :
    Noted t g r (t.rescoring { p with state := s' }) := by
  have hsucc := h.best.records_succ
  have hi : (t.rescoring { p with state := s' }).state.iterations = p.state.iterations + 1 := hiter
  exact
  { runs := hruns.trans h.runs
    best := by
      rw [hi]
      show IsBest _ _ (min s'.best (s'.cost t.formula))
      rw [hbest, hcost]
      exact h.best.next
    notices := by
      rw [hi, notices_rescoring hrec, progress, hsucc]
      simp only [hbest, hcost, hruns, h.runs, hiter, h.notices, h.readings]
      split
      · simp [progress, List.zipIdx_append]
      · simp [progress]
    readings := by
      rw [hi, readings_rescoring hrec, hsucc]
      simp only [hbest, hcost, h.readings]
      split
      · simp [Nat.add_assoc]
      · simp }

/-- **A recorded run** has noted its records, wherever it has come to. -/
theorem Trajectory.noted (hm : t.method.Regular) (hob : t.method.Oblivious) (hg : t.generator = .ok g)
    (ht : t.timeout = .never) (hrec : t.recorded = true) : ∀ {rest : List Run} {q : Run},
    Trajectory t r (q :: rest) → Noted t g r q
  | [], q, h => by
    cases h with
    | start hl =>
      rw [launch_run hg] at hl
      cases hl
      exact noted_opening t g r
  | p :: rest, q, h => by
    have hcourse := h.state_eq hm hg
    cases h with
    | next hb hs hu hr =>
      have ih := Trajectory.noted hm hob hg ht hrec hb
      obtain ⟨hx, -⟩ | ⟨-, he⟩ := limited_of_never ht hu
      · cases hx
      rw [he] at hr
      obtain ⟨s', hstep, hk, hround⟩ := round_run hm (hb.scored hm p List.mem_cons_self) hs
      have hruns : s'.runs = p.state.runs := by
        have h := hob.runs_eq t.formula p.state
        rw [hstep] at h
        exact h
      have hlen := hb.length_of_searching hm hs
      rw [hr] at hround
      cases hround
      rcases hk.goes with ⟨hp, hi⟩ | ⟨hp, hi, ha⟩
      · rw [if_pos hp] at hcourse ⊢
        refine ih.rescored hrec hruns hk.best hi ?_
        rw [costs, ← hlen, ← List.length_cons, ← hcourse]
        rfl
      · -- a round that gives up takes over what was noted
        rw [if_neg (by rw [hp]; decide)]
        exact
        { runs := hruns.trans ih.runs
          best := by
            rw [hi, hk.best]
            exact ih.best
          notices := by
            rw [hi]
            exact ih.notices
          readings := by
            rw [hi]
            exact ih.readings }

/-- Where a trajectory has come to by its iterations: a round that gives up stays where it is. -/
theorem Trajectory.assignment_eq (hm : t.method.Regular) (hg : t.generator = .ok g)
    (h : Trajectory t r (q :: rest)) :
    q.state.assignment = (t.course g r.state q.state.iterations).assignment := by
  by_cases hq : q.state.phase = .exhausted
  · have hlen := h.length_eq hm
    cases rest with
    | nil =>
      rw [if_pos hq] at hlen
      exact absurd hlen (by simp)
    | cons p rest =>
      obtain ⟨s', hb, hs, -, hk, hqs⟩ := h.latest hm
      have hp := hb.length_of_searching hm hs
      rcases hk.goes with ⟨hp', -⟩ | ⟨hp', hi, ha⟩
      · rw [if_pos hp'] at hqs
        rw [hqs] at hq
        exact absurd hq (State.rescored_ne_exhausted t.formula hp')
      · rw [if_neg (by rw [hp']; decide)] at hqs
        rw [hqs, ha, hi, ← hp, ← hb.state_eq hm hg]
  · rw [← h.length_of_ne hm hq, ← h.state_eq hm hg]

theorem Trajectory.unsatisfied_eq (hm : t.method.Regular) (hg : t.generator = .ok g)
    (h : Trajectory t r (q :: rest)) :
    t.formula.unsatisfiedCount q.state.assignment.look = .ok (t.costs g r.state q.state.iterations) := by
  rw [unsatisfiedCount_eq (reads_look (h.scored hm q List.mem_cons_self).size), h.assignment_eq hm hg]
  rfl

/-- What a recorded run launched from `r` has been through and noted when it has come to `q`. -/
structure OnRecord (t : Task) (g : Random.Generator) (r q : Run) (rest : List Run) : Prop
    extends Noted t g r q where
  counted : ∀ p ∈ q :: rest,
    t.formula.unsatisfiedCount p.state.assignment.look = .ok (t.costs g r.state p.state.iterations)
  passed : ∀ i ≤ q.state.iterations, ∃ p ∈ q :: rest, p.state.iterations = i

theorem Trajectory.counted (hm : t.method.Regular) (hg : t.generator = .ok g) : ∀ {rest : List Run}
    {q : Run}, Trajectory t r (q :: rest) → ∀ p ∈ q :: rest,
      t.formula.unsatisfiedCount p.state.assignment.look = .ok (t.costs g r.state p.state.iterations)
  | [], q, h, x, hx => by
    rw [List.mem_singleton.1 hx]
    exact h.unsatisfied_eq hm hg
  | p :: rest, q, h, x, hx => by
    rcases List.mem_cons.1 hx with rfl | hx
    · exact h.unsatisfied_eq hm hg
    · obtain ⟨s', hb, -⟩ := h.latest hm
      exact Trajectory.counted hm hg hb x hx

theorem Trajectory.passed (hm : t.method.Regular) : ∀ {rest : List Run} {q : Run},
    Trajectory t r (q :: rest) → ∀ i ≤ q.state.iterations, ∃ p ∈ q :: rest, p.state.iterations = i
  | [], q, h, i, hi => by
    have hlen := h.length_eq hm
    simp only [List.length_nil] at hlen
    exact ⟨q, List.mem_cons_self, by omega⟩
  | p :: rest, q, h, i, hi => by
    by_cases hiq : i = q.state.iterations
    · exact ⟨q, List.mem_cons_self, hiq.symm⟩
    · obtain ⟨s', hb, hs, -⟩ := h.latest hm
      have hlen := h.length_eq hm
      rw [List.length_cons, hb.length_of_searching hm hs] at hlen
      have hle : i ≤ p.state.iterations := by
        split at hlen <;> omega
      obtain ⟨x, hx, he⟩ := Trajectory.passed hm hb i hle
      exact ⟨x, List.mem_cons_of_mem q hx, he⟩

/-! ## Recorded runs that end -/

/-- At its end a recorded run has noted its progress, and a limit that carries no date. -/
theorem Noted.exits (h : Noted t g r q) (ht : t.timeout = .never) {stopped : Bool}
    (hx : Exits t started q p' (.ok stopped)) : p'.readings = q.readings ∧
      ∃ ns : List Notice, p'.notices = ns.reverse ++ r.notices ∧ ∀ clock,
        ns.filterMap (Events.ofNotice? clock) =
          (t.progress g r q.state.iterations).filterMap (Events.ofNotice? clock) := by
  cases hx with
  | finished _ => exact ⟨rfl, _, h.notices, fun _ => rfl⟩
  | stopped _ hl =>
    obtain ⟨-, he⟩ | ⟨hx, -⟩ := limited_of_never ht hl
    swap
    · exact absurd rfl hx
    rw [he]
    refine ⟨rfl, t.progress g r q.state.iterations ++ [.iterationLimit], ?_, fun clock => ?_⟩
    · simp [h.notices]
    · rw [List.filterMap_append]
      exact List.append_nil _

theorem notices_outcome {stopped : Bool} {o : Outcome} (hrec : t.recorded = true)
    (h : t.outcome started stopped p = (q, .ok o)) :
    q.notices = .finished p.state.runs o (some (p.readings + 1)) :: p.notices := by
  unfold outcome at h
  simp only at h
  split at h
  · cases h
  · cases h
    simp [hrec]

/-- Before the iteration that a run has come to, the counts are not zero. -/
theorem Trajectory.costs_pos (hm : t.method.Regular) (hg : t.generator = .ok g)
    (h : Trajectory t r (q :: rest)) {i : Nat} (hi : i < q.state.iterations) :
    0 < t.costs g r.state i := by
  have hlen := h.length_eq hm
  have hsc := h.scored_course hm hg (show i ≤ rest.length by omega)
  have hsearch := (h.before hm hg i (by omega)).1
  have hne := hsc.not_solves hsearch
  rw [← State.cost_eq_zero_iff] at hne
  exact Nat.pos_of_ne_zero hne

theorem Trajectory.costs_eq_zero_iff (hm : t.method.Regular) (hg : t.generator = .ok g)
    (h : Trajectory t r (q :: rest)) :
    t.costs g r.state q.state.iterations = 0 ↔ q.state.phase = .solved := by
  rw [(h.scored hm q List.mem_cons_self).solved_iff, ← State.cost_eq_zero_iff, State.cost,
    h.assignment_eq hm hg]
  rfl

end

end Search.Task

namespace Solver

section
variable (s : Solver) (w : Surroundings) (g : Random.Generator)

/-- The number of clauses that are unsatisfied after `i` iterations of the solver's next run. -/
def costs (i : Nat) : Nat := (s.task w).costs g s.run.state i

/-- The events of the progress of the solver's next run up to `n` iterations, one for each record. -/
def progressEvents (n : Nat) : List Events.Event :=
  (records (s.costs w g) n).zipIdx.map fun (i, k) =>
    Events.progressEvent (.int (s.run.state.runs + 1 : Nat)) (.int i) (.int (s.costs w g i))
      (.int s.formula.size) (w.clock (s.run.readings + 1 + k))

/-- The event of the outcome that the solver's next run comes to. -/
def resultEvent (o : Outcome) : Events.Event :=
  Events.resultEvent (.int (s.run.state.runs + 1 : Nat)) o.report.fields
    (w.clock (s.run.readings + 1 + (records (s.costs w g) o.iterations).length + 1))

/-- What is recorded of a run of the solver that comes to the outcome. -/
structure Journaled (s' : Solver) (o : Outcome) : Prop where
  ended : ∃ q rest, (s.task w).Trajectory s.run (q :: rest) ∧ s'.run.state = q.state ∧
    o.iterations = q.state.iterations
  /-- The events are those of the records, and then the one of the outcome, and they come to the files in
  this order. -/
  written : ∃ ns, s'.run.notices = ns.reverse ++ s.run.notices ∧
    ns.filterMap (Events.ofNotice? w.clock) = s.progressEvents w g o.iterations ++ [s.resultEvent w g o] ∧
    Events.Delivers w.clock ns (s.progressEvents w g o.iterations) [s.resultEvent w g o]
  increasing : (records (s.costs w g) o.iterations).Pairwise (· < ·)
  minima : ∀ i, i ∈ records (s.costs w g) o.iterations ↔
    1 ≤ i ∧ i ≤ o.iterations ∧ ∀ j < i, s.costs w g i < s.costs w g j
  best : ∃ b : Nat, Value.lookup? "best_unsatisfied" o.report.statistics = some (.int b) ∧
    IsBest (s.costs w g) o.iterations b
  last_iff : (∃ i, (records (s.costs w g) o.iterations).getLast? = some i ∧ s.costs w g i = 0) ↔
    o.status = .satisfiable ∧ 1 ≤ o.iterations

/-- What is recorded of a run of the solver that fails: its progress so far, and no result. -/
structure Abandoned (s' : Solver) (e : Failure) : Prop where
  ended : ∃ q rest, (s.task w).Trajectory s.run (q :: rest) ∧ s'.run.state = q.state ∧
    q.state.phase = .searching
  written : ∃ ns, s'.run.notices = ns.reverse ++ s.run.notices ∧
    ns.filterMap (Events.ofNotice? w.clock) = s.progressEvents w g s'.run.state.iterations ∧
    Events.Delivers w.clock ns (s.progressEvents w g s'.run.state.iterations) []
  /-- It is a cap that fails a run, if its limit is a cap or none. -/
  cap : ∀ cap, s.settings.maxIterations = Value.ofOption .int cap → e = .tooLong ∧
    ∃ M, cap = some M ∧ ¬ Text.Printable M ∧ M ≤ s'.run.state.iterations

end

section
variable {s s' : Solver} {w : Surroundings} {g : Random.Generator} {o : Outcome} {rounds : Nat}

theorem filterMap_progress (n : Nat) :
    ((s.task w).progress g s.run n).filterMap (Events.ofNotice? w.clock) = s.progressEvents w g n := by
  rw [Task.progress, List.filterMap_map, progressEvents, ← List.filterMap_eq_map]
  exact List.filterMap_congr fun x _ => rfl

theorem type_of_mem_progressEvents {n : Nat} {e : Events.Event} (h : e ∈ s.progressEvents w g n) :
    e.type = "progress" := by
  obtain ⟨x, -, rfl⟩ := List.mem_map.1 h
  rfl

theorem journaled (hm : s.method.Regular) (hob : s.method.Oblivious) (hg : (s.task w).generator = .ok g)
    (ht : s.settings.timeout = .null) (hrec : w.recorded = true)
    (h : s.solveWithin w rounds = some (s', .ok o)) : s.Journaled w g s' o := by
  have ht' := timeout_of_null ht w
  obtain ⟨r', hr, rfl⟩ := solveWithin_ok_iff.1 h
  obtain ⟨q, rest, p', stopped, htr, hx, ho⟩ := Task.solveWithin_exits hr
  have hno := htr.noted hm hob hg ht' hrec
  have hstate := hx.state_eq
  obtain ⟨hread, ms, hms, hdated⟩ := hno.exits ht' hx
  obtain ⟨hr', he⟩ := Task.outcome_ok (by rw [hstate]; exact hx.stopped_iff) ho
  have hfin := Task.notices_outcome hrec ho
  rw [hstate] at hr' he hfin
  have hiter : o.iterations = q.state.iterations := he.iterations
  let final : Notice := .finished q.state.runs o (some (p'.readings + 1))
  have hresult : Events.ofNotice? w.clock final = some (s.resultEvent w g o) := by
    simp only [final, resultEvent, hread, hno.readings, hno.runs, hiter]
    rfl
  have hevents : (ms ++ [final]).filterMap (Events.ofNotice? w.clock) =
      s.progressEvents w g o.iterations ++ [s.resultEvent w g o] := by
    rw [List.filterMap_append, hdated, filterMap_progress, List.filterMap_cons_some hresult, ← hiter]
    rfl
  exact
  { ended := ⟨q, rest, htr, hr', hiter⟩
    written := ⟨ms ++ [final], by simp [hfin, hms, final], hevents,
      Events.delivers hevents (fun _ => type_of_mem_progressEvents) fun e he => by
        rw [List.mem_singleton.1 he]
        rfl⟩
    increasing := pairwise_records (s.costs w g) o.iterations
    minima := fun _ => mem_records
    best := by
      refine ⟨q.state.best, ?_, by rw [hiter]; exact hno.best⟩
      rw [Outcome.report, he.counters, Task.counters]
      simp [Value.lookup?]
    last_iff := by
      have hpos : ∀ j < q.state.iterations, 0 < s.costs w g j := fun j hj => htr.costs_pos hm hg hj
      rw [hiter, getLast?_records hpos, he.status, Phase.status_eq_satisfiable_iff,
        ← htr.costs_eq_zero_iff hm hg, And.comm]
      rfl }

theorem abandoned (hm : s.method.Regular) (hob : s.method.Oblivious) (hg : (s.task w).generator = .ok g)
    (ht : s.settings.timeout = .null) (hrec : w.recorded = true) {e : Failure}
    (h : s.solveWithin w rounds = some (s', .error e)) : s.Abandoned w g s' e := by
  have ht' := timeout_of_null ht w
  obtain ⟨o, ho⟩ | ⟨f, q, rest, he, htr, hf⟩ := solveWithin_cases hm hg h
  · cases ho
  cases he
  obtain ⟨hx, -⟩ | ⟨-, hrun⟩ := Task.limited_of_never ht' hf.untested
  · cases hx
  have hno := htr.noted hm hob hg ht' hrec
  have hevents := filterMap_progress (s := s) (w := w) (g := g) q.state.iterations
  rw [← hrun] at htr hno hevents
  exact
  { ended := ⟨s'.run, rest, htr, rfl, by rw [hrun]; exact hf.searching⟩
    written := ⟨_, hno.notices, hevents, Events.delivers (by rw [hevents, List.append_nil])
      (fun _ => type_of_mem_progressEvents) fun _ he => absurd he List.not_mem_nil⟩
    cap := by
      intro cap hcap
      cases cap with
      | none =>
        have hlimits := Uncapped.limits (s := s) ⟨hcap, ht⟩ w
        have hq := hf.untested
        rw [Task.limited_never hlimits.1 hlimits.2] at hq
        cases hq
      | some M =>
        obtain ⟨rfl, hprint, hle⟩ := reached_of_fails hcap ht hf
        exact ⟨rfl, M, rfl, hprint, by rw [hrun]; exact hle⟩ }

/-- A greedy run without limits and a run whose only limit is a cap that can be noted come to an outcome. -/
theorem returns_of_cap (hm : s.method = Greedy.method ∨ s.method = Walk.method) (hs : s.Seeded)
    (ht : s.settings.timeout = .null)
    (h : (s.method = Greedy.method ∧ s.settings.maxIterations = .null) ∨
      ∃ M : Int, s.settings.maxIterations = .int M ∧ Text.Printable M) (w : Surroundings) :
    ∃ s' o, s.solve? w = some (s', .ok o) := by
  rcases h with ⟨hgreedy, hn⟩ | ⟨M, hM, hprint⟩
  · exact Greedy.solve?_isSome hgreedy hs ⟨hn, ht⟩ w
  · obtain ⟨s', x, hx⟩ := solve?_isSome_of_cap (regular_of_method hm) hs hM w
    have hnum : s.Numeric := ⟨.inr ⟨.int M, by rw [hM]; rfl⟩, .inl ht⟩
    have hnote : s.Notable := ⟨by rw [hM]; exact hprint, by rw [ht]; trivial⟩
    obtain ⟨o, rfl⟩ := answer_ok hm hs hnum hnote hx
    exact ⟨s', o, hx⟩

end

/-- **What is recorded of a run is its record minima**: wherever the run has come to, it has noted its
progress at each iteration whose count of unsatisfied clauses is below all before, and at no other; when
it ends the outcome follows, which is the one that comes without a record, by whatever clock. It does end
if the search is greedy or its cap can be noted; a run that a cap fails has no result. -/
theorem solver_journaled {s : Solver} {w : Surroundings}
    (hm : s.method = Greedy.method ∨ s.method = Walk.method) (hs : s.Seeded)
    (ht : s.settings.timeout = .null) (hrec : w.recorded = true) :
    ∃ g, Random.Generator.ofValue s.settings.seed = .ok g ∧
      (∀ q rest, (s.task w).Trajectory s.run (q :: rest) → (s.task w).OnRecord g s.run q rest) ∧
      (∀ rounds s' o, s.solveWithin w rounds = some (s', .ok o) → s.Journaled w g s' o ∧
        ∀ clock, ∃ s'' o', s.solveWithin ⟨clock, false⟩ rounds = some (s'', .ok o') ∧ o.Agrees o') ∧
      (∀ rounds s' e, s.solveWithin w rounds = some (s', .error e) → s.Abandoned w g s' e) ∧
      ((s.method = Greedy.method ∧ s.settings.maxIterations = .null) ∨
        (∃ M : Int, s.settings.maxIterations = .int M ∧ Text.Printable M) →
        ∃ s' o, s.solve? w = some (s', .ok o)) := by
  have hreg := regular_of_method hm
  have hob := oblivious_of_method hm
  obtain ⟨g, hg⟩ := hs.generator w
  have ht' := timeout_of_null ht w
  refine ⟨g, hg, fun q rest htr => ?_, fun rounds s' o h => ⟨journaled hreg hob hg ht hrec h, ?_⟩,
    fun rounds s' e => abandoned hreg hob hg ht hrec, fun h => returns_of_cap hm hs ht h w⟩
  · exact ⟨htr.noted hreg hob hg ht' hrec, htr.counted hreg hg, htr.passed hreg⟩
  · intro clock
    obtain ⟨s'', o', h', hagrees, -⟩ := (SameTask.refl ht).solveWithin_ok hob hg h ⟨clock, false⟩
    exact ⟨s'', o', h', hagrees⟩

theorem solver_journaled_oneOfTwo : ∃ g s' o,
    (oneOfTwo Greedy.method).solve? ⟨fun _ => 0, true⟩ = some (s', .ok o) ∧
      (oneOfTwo Greedy.method).Journaled ⟨fun _ => 0, true⟩ g s' o := by
  obtain ⟨g, -, -, hj, -, hret⟩ := solver_journaled (s := oneOfTwo Greedy.method) (w := ⟨fun _ => 0, true⟩)
    (Or.inl rfl) ⟨7, rfl⟩ rfl rfl
  obtain ⟨s', o, h⟩ := hret (Or.inl ⟨rfl, rfl⟩)
  exact ⟨g, s', o, h, (hj _ s' o h).1⟩

/-- A run that is stopped by a cap of too many digits has no result. -/
theorem long_cap_unrecorded : ∃ s', ({ oneOfTwo Greedy.method with
    settings := ⟨.int 7, .text "unassigned", .int (-Text.beyondDigits), .null⟩ } : Solver).solve?
      ⟨fun _ => 0, true⟩ = some (s', .error .tooLong) ∧
    ∀ e ∈ s'.run.notices.filterMap (Events.ofNotice? fun _ => 0), e.type ≠ "result" := by
  let s : Solver := (oneOfTwo Greedy.method).capped (some (-Text.beyondDigits))
  obtain ⟨s', h⟩ := balks_oneOfTwo ⟨fun _ => 0, true⟩
  obtain ⟨g, hg⟩ := Seeded.generator (s := s) ⟨7, rfl⟩ ⟨fun _ => 0, true⟩
  obtain ⟨ns, hns, hevents, -⟩ :=
    (abandoned (s := s) (Greedy.regular rfl) (oblivious_of_method (.inl rfl)) hg rfl rfl h).written
  refine ⟨s', h, fun e he => ?_⟩
  have hnotices : s'.run.notices = ns.reverse := by rw [hns]; exact List.append_nil _
  rw [hnotices, List.filterMap_reverse, List.mem_reverse, hevents] at he
  rw [type_of_mem_progressEvents he]
  decide

end Solver

end LocalSat
