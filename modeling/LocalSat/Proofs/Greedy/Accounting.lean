import LocalSat.Proofs.Greedy.Exhaustion
import LocalSat.Proofs.Greedy.Path

/-!
# The counters of a greedy run

`Accounted` ties the counters of a greedy search together: each iteration is a move or a backtrack, the
path is as long as there are more moves than backtracks, and the closed states are as many as the moves,
with one more when the present values are closed. The last needs that no values are entered twice
(`Explored.entered_nodup`): closing again what a backtrack came back to adds nothing. Whether the present
values of a run that goes on are closed is told by its latest step (`closed_iff_wentBack`). Main
statement: all this holds between any two rounds of a greedy solver, and of what it returns
(`solver_accounted`).
-/

namespace LocalSat.Search.Greedy

open Assignment

/-- How the counters of a greedy search hang together. -/
structure Accounted (s : State) : Prop where
  iterations : s.iterations = s.moves + s.backtracks
  backtracks_le : s.backtracks ≤ s.moves
  path : s.assignment.history.length = s.moves - s.backtracks
  closed : s.closed.size = if s.assignment.fingerprint ∈ s.closed then s.moves + 1 else s.moves

/-- The latest round of a run, given the latest first, took a move back. -/
def WentBack : List Run → Prop
  | q :: p :: _ => p.state.assignment.undo? = some q.state.assignment
  | _ => False

/-! ## States -/

section
variable {f : Formula} {start : Values} {ent : List Values} {s : State}

/-- When the present values are closed, everything that was entered is. -/
theorem Explored.mem_closed_iff_of_closed (h : Explored f start ent s)
    (hc : key s.assignment.values ∈ s.closed) {k : Fingerprint} : k ∈ s.closed ↔ k ∈ ent.map key := by
  rw [List.mem_map]
  constructor
  · exact h.closed_entered k
  · rintro ⟨v, hv, rfl⟩
    by_cases he : v = s.assignment.values
    · rw [he]
      exact hc
    · exact h.left_closed v hv he

/-- When the present values are open, all else that was entered is closed. -/
theorem Explored.mem_closed_iff_of_open (h : Explored f start ent s)
    (ho : key s.assignment.values ∉ s.closed) {k : Fingerprint} :
    k ∈ s.closed ↔ k ∈ (ent.erase s.assignment.values).map key := by
  rw [List.mem_map]
  constructor
  · intro hk
    obtain ⟨v, hv, rfl⟩ := h.closed_entered k hk
    have hne : v ≠ s.assignment.values := by
      rintro rfl
      exact ho hk
    exact ⟨v, (h.entered_nodup.mem_erase_iff).2 ⟨hne, hv⟩, rfl⟩
  · rintro ⟨v, hv, rfl⟩
    obtain ⟨hne, hv⟩ := (h.entered_nodup.mem_erase_iff).1 hv
    exact h.left_closed v hv hne

/-- The closed set grew with each value that was left, and with none of them twice. -/
theorem Explored.size_closed_eq (h : Explored f start ent s) :
    s.closed.size = if s.assignment.fingerprint ∈ s.closed then s.moves + 1 else s.moves := by
  rw [fingerprint_eq_key]
  have hlen := h.length_entered
  by_cases hc : key s.assignment.values ∈ s.closed
  · rw [if_pos hc, size_eq_of_mem_iff (h.entered_nodup.map key_injective) fun k =>
      h.mem_closed_iff_of_closed hc, List.length_map, hlen]
  · have hnd := h.entered_nodup.erase s.assignment.values
    rw [if_neg hc, size_eq_of_mem_iff (hnd.map key_injective) fun k => h.mem_closed_iff_of_open hc,
      List.length_map, List.length_erase_of_mem h.current_entered, hlen]
    rfl

/-- **What a run has explored accounts for its counters.** -/
theorem Explored.accounted (h : Explored f start ent s) : Accounted s := by
  have hm := h.moves_eq
  rw [State.depth] at hm
  exact ⟨h.iterations_eq, by omega, by omega, h.size_closed_eq⟩

theorem Explored.open_of_solves (h : Explored f start ent s) (hs : s.Solves f) :
    s.assignment.fingerprint ∉ s.closed :=
  fun hc => h.falsified s.assignment.values hc hs

end

/-! ## Trajectories -/

section
variable {t : Task} {r q : Run} {rest : List Run}

/-- While a greedy run goes on, its present values are closed just when the latest step went back to
them. -/
theorem closed_iff_wentBack (hm : t.method = method) (h : t.Trajectory r (q :: rest))
    (hq : q.state.phase = .searching) :
    q.state.assignment.fingerprint ∈ q.state.closed ↔ WentBack (q :: rest) := by
  obtain ⟨r₀, hl⟩ := h.launched
  cases rest with
  | nil =>
    obtain ⟨g, hg⟩ := Task.generator_of_launch hl
    have hq₀ : q = r₀ := Option.some.inj (h.getLast?_eq hl)
    rw [hq₀, (Task.fresh_of_launch hg hl).closed]
    exact iff_of_false Std.HashSet.not_mem_empty id
  | cons p rest =>
    obtain ⟨s', hb, -, -, hS, hs'⟩ := latest_step hm h
    have hE := explored hm hl hb
    obtain ⟨ha, hc⟩ := latest_kept hs'
    rw [WentBack, ha, hc, fingerprint_eq_key]
    cases hS with
    | forward happ hnear hopen =>
      refine iff_of_false hopen fun hundo => ?_
      have hback := State.depth_lt_of_undo? (s := p.state) hundo
      exact absurd (State.depth_lt_of_apply happ) (Nat.lt_asymm hback)
    | back hstuck hundo =>
      -- what a backtrack comes back to lay behind the present values
      refine iff_of_true (mem_close.2 (Or.inr (hE.behind_closed _ ?_))) hundo
      rw [trail_undo? hundo]
      exact values_mem_trail _
    | exhaust hstuck hstart =>
      rw [if_neg (fun hx => Phase.noConfusion hx)] at hs'
      rw [hs'] at hq
      cases hq

theorem accounted (hm : t.method = method) (h : t.Trajectory r (q :: rest)) : Accounted q.state := by
  obtain ⟨r₀, hl⟩ := h.launched
  exact (explored hm hl h).accounted

end

/-! ## Outcomes -/

/-- What an outcome reports of the state that the search ended with. -/
structure Reported (o : Outcome) (s : State) : Prop where
  iterations : o.iterations = s.iterations
  moves : Value.lookup? "moves" o.report.statistics = some (.int s.moves)
  backtracks : Value.lookup? "backtracks" o.report.statistics = some (.int s.backtracks)
  closedStates : Value.lookup? "closed_states" o.report.statistics = some (.int s.closed.size)
  pathLength : Value.lookup? "path_length" o.report.statistics =
    some (.int s.assignment.history.length)

/-- What the status of an outcome tells about the counters of the run that ended as the list says, the
latest first. -/
structure Concluded (o : Outcome) (s : State) (rs : List Run) : Prop where
  reported : Reported o s
  satisfiable : o.status = .satisfiable → s.closed.size = s.moves
  exhausted : o.status = .exhausted →
    s.closed.size = s.moves + 1 ∧ s.moves = s.backtracks ∧ s.assignment.history.length = 0
  timeout : o.status = .timeout → (s.closed.size = s.moves + 1 ↔ WentBack rs)

theorem reported {t : Task} {s : State} {o : Outcome} (hm : t.method = method) (h : t.Ended s o) :
    Reported o s := by
  refine ⟨h.iterations, ?_, ?_, ?_, ?_⟩
  all_goals
    rw [statistics_eq hm h]
    simp [Value.lookup?]

theorem concluded {t : Task} {r q : Run} {rest : List Run} {o : Outcome} (hm : t.method = method)
    (h : t.Trajectory r (q :: rest)) (he : t.Ended q.state o) : Concluded o q.state (q :: rest) := by
  obtain ⟨r₀, hl⟩ := h.launched
  have hE := explored hm hl h
  have hsize := hE.size_closed_eq
  have hscored := h.scored (regular hm) q List.mem_cons_self
  have hstatus := he.status
  exact
  { reported := reported hm he
    satisfiable := by
      intro ho
      rw [ho, eq_comm, Phase.status_eq_satisfiable_iff, hscored.solved_iff] at hstatus
      rw [hsize, if_neg (hE.open_of_solves hstatus)]
    exhausted := by
      intro ho
      rw [ho, eq_comm, Phase.status_eq_exhausted_iff] at hstatus
      obtain ⟨hhistory, hclosed, -⟩ := hE.gaveUp hstatus
      have hmoves := hE.moves_eq
      rw [State.depth, hhistory] at hmoves
      exact ⟨hsize.trans (if_pos hclosed), hmoves, by rw [hhistory]; rfl⟩
    timeout := by
      intro ho
      rw [ho, eq_comm, Phase.status_eq_timeout_iff] at hstatus
      rw [← closed_iff_wentBack hm h hstatus, hsize]
      split
      · rename_i hc
        exact iff_of_true rfl hc
      · rename_i hc
        exact iff_of_false (by omega) hc }

/-- **A greedy solver keeps its counters in account** between any two of its rounds, at whatever limits
and by whatever clock; what it returns are the counters of its last state, and the status tells which of
the two numbers of closed states it is. -/
theorem solver_accounted {s : Solver} (hm : s.method = method) (w : Surroundings) :
    (∀ q earlier, (s.task w).Trajectory s.run (q :: earlier) → Accounted q.state) ∧
    ∀ s' o, s.Returns w s' o → Accounted s'.run.state ∧
      ∃ q earlier, (s.task w).Trajectory s.run (q :: earlier) ∧
        (s.task w).Halts (w.clock s.run.readings) q ∧ s'.run.state = q.state ∧
        Concluded o s'.run.state (q :: earlier) := by
  have hm' : (s.task w).method = method := hm
  refine ⟨fun q earlier h => accounted hm' h, fun s' o ho => ?_⟩
  obtain ⟨q, earlier, h, hhalts, hs', he⟩ := ho.ended
  rw [hs']
  exact ⟨accounted hm' h, q, earlier, h, hhalts, rfl, concluded hm' h he⟩

theorem solver_accounted_allOverTwo : ∃ s' o,
    ({ Solver.oneOfTwo method with formula := allOverTwo } : Solver).Returns .still s' o ∧
      s'.run.state.closed.size = s'.run.state.moves + 1 ∧ s'.run.state.moves = s'.run.state.backtracks := by
  obtain ⟨s', o, h, hx⟩ := exhausted_of_not_satisfiable
    (s := { Solver.oneOfTwo method with formula := allOverTwo }) rfl ⟨7, rfl⟩ ⟨rfl, rfl⟩
    not_satisfiable_allOverTwo .still
  obtain ⟨-, q, earlier, -, -, -, hc⟩ := (solver_accounted rfl .still).2 s' o h
  obtain ⟨hsize, hmoves, -⟩ := hc.exhausted hx
  exact ⟨s', o, h, hsize, hmoves⟩

end LocalSat.Search.Greedy
