import LocalSat.Proofs.Greedy.Explored
import LocalSat.Proofs.Returns

/-!
# The path of a greedy run

`Tracked` says how the history, the closed values and the past of a greedy run hang together between its
rounds: replaying the history brings up the path back to the start, everything on the path but its end is
closed, what is closed is falsified and stays closed, and a move forward enters values that the run has
not held before. Main statement: it holds between any two rounds of a greedy solver (`solver_tracked`).
-/

namespace LocalSat.Search.Greedy

open Assignment

/-- What holds of a greedy run that is now `q` and was `earlier` before, the latest first. -/
structure Tracked (f : Formula) (q : Run) (earlier : List Run) : Prop where
  closed_grow : ∀ p ∈ earlier, ∀ k ∈ p.state.closed, k ∈ q.state.closed
  replay : q.state.assignment.trail = path (q :: earlier)
  replay_last : q.state.assignment.trail.getLast? = ((q :: earlier).getLast?).map Run.values
  path_nodup : (path (q :: earlier)).Nodup
  /-- What lies behind the present values on the path is closed. -/
  path_closed : ∀ v ∈ (path (q :: earlier)).tail, key v ∈ q.state.closed
  /-- Only values that the run has held are closed. -/
  closed_held : ∀ k ∈ q.state.closed, ∃ p ∈ q :: earlier, p.state.assignment.fingerprint = k
  closed_falsified : ∀ a : Assignment, a.fingerprint ∈ q.state.closed →
    ∃ c ∈ f.clauses, c.isSatisfied a.look = .ok false
  /-- A move forward enters values that are open, off the path, and new to the run. -/
  fresh : ∀ p rest, earlier = p :: rest → p.state.depth < q.state.depth →
    q.state.assignment.fingerprint ∉ q.state.closed ∧ q.values ∉ path earlier ∧
      ∀ x ∈ earlier, x.values ≠ q.values

section
variable {t : Task} {r p q : Run} {rest : List Run}

/-- A move forward enters open values, while all that the run has held before is closed. -/
theorem open_of_forward (hm : t.method = method) (h : t.Trajectory r (q :: p :: rest))
    (hd : p.state.depth < q.state.depth) : key q.values ∉ q.state.closed ∧
      ∀ x ∈ p :: rest, key x.values ∈ q.state.closed := by
  obtain ⟨r₀, hl⟩ := h.launched
  obtain ⟨s', hb, -, -, hS, hq⟩ := latest_step hm h
  have hE := explored hm hl hb
  obtain ⟨ha, hc⟩ := latest_kept hq
  rw [Run.values, ha, hc]
  rw [State.depth, State.depth, ha] at hd
  cases hS with
  | forward happ hnear hopen =>
    exact ⟨hopen, fun x hx => hE.entered_closed (values_mem_entered hm hb x hx)⟩
  | back hstuck hundo =>
    exact absurd hd (Nat.lt_asymm (State.depth_lt_of_undo? hundo))
  | exhaust hstuck hstart =>
    exact absurd hd (Nat.lt_irrefl _)

/-- What is on the path the run has held. -/
theorem exists_of_mem_path (hm : t.method = method) (h : t.Trajectory r (q :: rest)) {v : Values}
    (hv : v ∈ path (q :: rest)) : ∃ p ∈ q :: rest, p.values = v := by
  obtain ⟨r₀, hl⟩ := h.launched
  rw [← trail_eq_path hm h] at hv
  exact mem_of_mem_entered ((explored hm hl h).trail_entered v hv)

/-- Closed values leave some clause of the formula untrue. -/
theorem exists_violated (hm : t.method = method) (h : t.Trajectory r (q :: rest)) {a : Assignment}
    (ha : a.fingerprint ∈ q.state.closed) : ∃ c ∈ t.formula.clauses, c.isSatisfied a.look = .ok false := by
  obtain ⟨r₀, hl⟩ := h.launched
  have hE := explored hm hl h
  obtain ⟨v, hv, he⟩ := hE.closed_entered _ ha
  obtain ⟨x, hx, rfl⟩ := mem_of_mem_entered hv
  have hsize : a.size = t.formula.numVariables := by
    rw [Assignment.size, ← key_injective he]
    exact (h.scored (regular hm) x hx).size
  obtain ⟨c, hc, hf⟩ := exists_falsified (hE.falsified a.values ha)
  refine ⟨c, hc, ?_⟩
  rw [clause_isSatisfied_eq (reads_look hsize c hc)]
  simp only [hf, decide_false]

/-- A run without limits that does not start on a model begins with a move forward. -/
theorem forward_of_launch (hm : t.method = method) (hi : t.maxIterations = .never)
    (ht : t.timeout = .never) (hl : t.launch r = (p, .ok ())) (hf : ¬ p.state.Solves t.formula) :
    ∃ q, t.Trajectory r [q, p] ∧ p.state.depth < q.state.depth := by
  obtain ⟨g, hg⟩ := Task.generator_of_launch hl
  have hfresh := Task.fresh_of_launch hg hl
  have hs : p.state.phase = .searching := by
    cases hp : p.state.phase with
    | searching => rfl
    | solved => exact absurd (hfresh.scored.solved_iff.1 hp) hf
    | exhausted => exact absurd hp hfresh.phase
  obtain ⟨q, -, hr, -⟩ := Task.round_eq (regular hm) hfresh.scored hs
  have hq : t.Trajectory r [q, p] := .next (.start hl) hs (Task.limited_never hi ht _ p) hr
  have hstuck : ¬ Stuck t.formula p.state := by
    intro hstuck
    obtain ⟨v, hv⟩ := exists_neighbour hfresh.scored.size hf
    rcases mem_close.1 (hstuck v hv) with he | hc
    · exact hv.ne hfresh.scored.size (key_injective he)
    · rw [hfresh.closed] at hc
      exact Std.HashSet.not_mem_empty hc
  obtain ⟨s', -, -, -, hS, hk⟩ := latest_step hm hq
  refine ⟨q, hq, ?_⟩
  rw [State.depth, State.depth, (latest_kept hk).1]
  cases hS with
  | forward happ hnear hopen => exact State.depth_lt_of_apply happ
  | back h => exact absurd h hstuck
  | exhaust h => exact absurd h hstuck

end

/-- **Between any two rounds of a greedy solver** its history, its closed values and its past hang
together. -/
theorem solver_tracked {s : Solver} (hm : s.method = method) (w : Surroundings) {q : Run}
    {earlier : List Run} (h : (s.task w).Trajectory s.run (q :: earlier)) :
    Tracked s.formula q earlier := by
  have hm' : (s.task w).method = method := hm
  obtain ⟨r₀, hl⟩ := h.launched
  have hE := explored hm' hl h
  have htrail := trail_eq_path hm' h
  exact
  { closed_grow := fun p hp => closed_subset hm' h p (List.mem_cons_of_mem q hp)
    replay := htrail
    replay_last := by
      rw [hE.trail_last, h.getLast?_eq hl]
      rfl
    path_nodup := by
      rw [← htrail]
      exact hE.trail_nodup
    path_closed := by
      rw [← htrail]
      exact hE.behind_closed
    closed_held := by
      intro k hk
      obtain ⟨v, hv, he⟩ := hE.closed_entered k hk
      obtain ⟨p, hp, rfl⟩ := mem_of_mem_entered hv
      exact ⟨p, hp, he⟩
    closed_falsified := fun a => exists_violated hm' h
    fresh := by
      rintro p rest rfl hd
      obtain ⟨s', hb, -⟩ := latest_step hm' h
      obtain ⟨hopen, hclosed⟩ := open_of_forward hm' h hd
      -- all that was held before is closed by now, so the open values are none of it
      have hnew : ∀ x ∈ p :: rest, x.values ≠ q.values := fun x hx he => hopen (he ▸ hclosed x hx)
      refine ⟨hopen, fun hp => ?_, hnew⟩
      obtain ⟨x, hx, he⟩ := exists_of_mem_path hm' hb hp
      exact hnew x hx he }

theorem solver_tracked_oneOfTwo : ∃ p q,
    ((Solver.oneOfTwo method).task .still).Trajectory (Solver.oneOfTwo method).run [q, p] ∧
      p.state.assignment.fingerprint ∈ q.state.closed ∧
      q.state.assignment.fingerprint ∉ q.state.closed := by
  have hg : ((Solver.oneOfTwo method).task .still).generator = .ok _ := rfl
  obtain ⟨p, hl, hp⟩ := Task.launch_eq hg (Solver.oneOfTwo method).run
  obtain ⟨q, h, hd⟩ := forward_of_launch rfl rfl rfl hl (by rw [State.Solves, hp.assignment]; decide)
  have ht := solver_tracked rfl .still h
  have hpath : path [q, p] = [q.values, p.values] := if_pos hd
  refine ⟨p, q, h, ht.path_closed p.values ?_, (ht.fresh p [] rfl hd).1⟩
  rw [hpath]
  exact List.mem_cons_self

end LocalSat.Search.Greedy
