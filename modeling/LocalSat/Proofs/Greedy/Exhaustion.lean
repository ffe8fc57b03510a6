import Mathlib.Data.Set.Card
import LocalSat.Proofs.Greedy.Completeness

/-!
# What an exhausted greedy search has explored

`reach` holds the fingerprints of all assignments that chains of candidate moves lead to. A greedy search
that gives up has closed exactly these (`Explored.mem_closed_iff`), each of them once, and is back where
it began. Main statement: all that an exhausted greedy solver reports is the size of `reach` and the score
of its start (`solver_exhausted`).
-/

namespace LocalSat

/-- A set and a list without repetitions have one size if they have the same members. -/
theorem size_eq_of_mem_iff {α : Type} [BEq α] [LawfulBEq α] [Hashable α] {s : Std.HashSet α}
    {l : List α} (hl : l.Nodup) (h : ∀ x, x ∈ s ↔ x ∈ l) : s.size = l.length := by
  have hnd : s.toList.Nodup := by
    refine Std.HashSet.distinct_toList.imp fun {x y} hxy => ?_
    simpa using hxy
  have hperm : s.toList.Perm l := by
    rw [List.perm_ext_iff_of_nodup hnd hl]
    intro x
    rw [Std.HashSet.mem_toList, h]
  rw [← Std.HashSet.length_toList, hperm.length_eq]

namespace Search.Greedy

open Assignment

/-! ## Reachable assignments -/

/-- A candidate move leads from one assignment to the other. -/
def Leads (f : Formula) (a b : Assignment) : Prop :=
  ∃ ms m, candidateMoves f a = .ok ms ∧ m ∈ ms ∧ a.apply m = .ok b

/-- The fingerprints of the assignments that chains of candidate moves lead to. -/
def reach (f : Formula) (a : Assignment) : Set Fingerprint :=
  {k | ∃ b, Relation.ReflTransGen (Leads f) a b ∧ b.fingerprint = k}

section
variable {f : Formula} {a b : Assignment} {v : Values}

theorem flipsOf_forget (a : Assignment) : ∀ is : List Int, flipsOf a.forget is = flipsOf a is
  | [] => rfl
  | i :: is => by
    have hi : a.forget.flips i = a.flips i := rfl
    rw [flipsOf, flipsOf, hi, flipsOf_forget a is]

/-- The candidate moves do not depend on the history. -/
theorem candidateMoves_forget (f : Formula) (a : Assignment) :
    candidateMoves f a.forget = candidateMoves f a := by
  have hl : a.forget.look = a.look := rfl
  simp only [candidateMoves, hl, flipsOf_forget]

/-- The neighbours of the values of an assignment are what the assignment's candidate moves lead to. -/
theorem neighbour_iff_leads : Neighbour f a.values v ↔ ∃ b, Leads f a b ∧ b.values = v := by
  constructor
  · rintro ⟨ms, m, c, hms, hm, hc, rfl⟩
    obtain ⟨old, hold, rfl⟩ := apply_eq_ok_iff.1 hc
    exact ⟨_, ⟨ms, m, (candidateMoves_forget f a).symm.trans hms, hm,
      apply_eq_ok_iff.2 ⟨old, hold, rfl⟩⟩, rfl⟩
  · rintro ⟨b, ⟨ms, m, hms, hm, hb⟩, rfl⟩
    obtain ⟨old, hold, rfl⟩ := apply_eq_ok_iff.1 hb
    exact ⟨ms, m, _, (candidateMoves_forget f a).trans hms, hm,
      apply_eq_ok_iff.2 ⟨old, hold, rfl⟩, rfl⟩

/-- What is reached from an assignment is what is reached from its values by way of neighbours. -/
theorem mem_reach_iff {k : Fingerprint} :
    k ∈ reach f a ↔ ∃ v, Relation.ReflTransGen (Neighbour f) a.values v ∧ key v = k := by
  constructor
  · rintro ⟨b, hb, rfl⟩
    exact ⟨b.values, hb.lift Assignment.values fun x y h => neighbour_iff_leads.2 ⟨y, h, rfl⟩, rfl⟩
  · rintro ⟨v, hv, rfl⟩
    suffices h : ∃ b, Relation.ReflTransGen (Leads f) a b ∧ b.values = v by
      obtain ⟨b, hb, rfl⟩ := h
      exact ⟨b, hb, rfl⟩
    induction hv with
    | refl => exact ⟨a, .refl, rfl⟩
    | tail _ hn ih =>
      obtain ⟨b, hb, rfl⟩ := ih
      obtain ⟨c, hc, he⟩ := neighbour_iff_leads.1 hn
      exact ⟨c, hb.tail hc, he⟩

end

/-! ## What is closed in the end -/

section
variable {f : Formula} {start : Assignment} {ent : List Values} {s : State}

/-- A search that has given up has closed what it entered. -/
theorem Explored.mem_closed_iff_entered (h : Explored f start.values ent s) (hx : s.phase = .exhausted)
    {k : Fingerprint} : k ∈ s.closed ↔ k ∈ ent.map key := by
  rw [List.mem_map]
  constructor
  · exact h.closed_entered k
  · rintro ⟨v, hv, rfl⟩
    exact h.entered_closed_of_exhausted hx hv

/-- It is back at its start. -/
theorem Explored.values_eq_start (h : Explored f start.values ent s) (hx : s.phase = .exhausted) :
    s.assignment.values = start.values := by
  have hlast := h.trail_last
  rw [trail_of_history_nil (h.gaveUp hx).1] at hlast
  exact Option.some.inj hlast

/-- **A search that has given up** has closed exactly what can be reached. -/
theorem Explored.mem_closed_iff (h : Explored f start.values ent s) (hx : s.phase = .exhausted)
    {k : Fingerprint} : k ∈ s.closed ↔ k ∈ reach f start := by
  rw [mem_reach_iff]
  constructor
  · intro hk
    obtain ⟨v, hv, rfl⟩ := h.closed_entered k hk
    exact ⟨v, h.reached v hv, rfl⟩
  · rintro ⟨v, hv, rfl⟩
    induction hv with
    | refl =>
      rw [← h.values_eq_start hx]
      exact (h.gaveUp hx).2.1
    | tail _ hn ih => exact h.closed_next hx ih hn

theorem Explored.reach_eq (h : Explored f start.values ent s) (hx : s.phase = .exhausted) :
    reach f start = ((ent.map key).toFinset : Set Fingerprint) := by
  ext k
  rw [← h.mem_closed_iff hx, h.mem_closed_iff_entered hx, List.coe_toFinset]
  rfl

/-- What can be reached is as much as was entered. -/
theorem Explored.ncard_reach (h : Explored f start.values ent s) (hx : s.phase = .exhausted) :
    (reach f start).ncard = s.moves + 1 := by
  rw [h.reach_eq hx, Set.ncard_coe_finset,
    List.toFinset_card_of_nodup (h.entered_nodup.map key_injective), List.length_map, h.length_entered]

theorem Explored.size_closed (h : Explored f start.values ent s) (hx : s.phase = .exhausted) :
    s.closed.size = s.moves + 1 := by
  rw [size_eq_of_mem_iff (h.entered_nodup.map key_injective) fun k => h.mem_closed_iff_entered hx,
    List.length_map, h.length_entered]

end

/-! ## Exhausted solvers -/

/-- What is reported of a greedy search beside its outcome. -/
theorem statistics_eq {t : Task} {s : State} {o : Outcome} (hm : t.method = method) (h : t.Ended s o) :
    o.report.statistics = [("best_unsatisfied", .int s.best), ("moves", .int s.moves),
      ("backtracks", .int s.backtracks), ("closed_states", .int s.closed.size),
      ("path_length", .int s.assignment.history.length), ("runtime", .real o.runtime)] := by
  rw [Outcome.report, h.counters, Task.counters, hm]
  rfl

/-- The state and the outcome are those of a search that has explored all that can be reached from the
start, and that is back there. -/
structure Exhaustive (f : Formula) (start : Assignment) (s : State) (o : Outcome) : Prop where
  closed_iff : ∀ k, k ∈ s.closed ↔ k ∈ reach f start
  finite : (reach f start).Finite
  values : s.assignment.values = start.values
  history : s.assignment.history = []
  satisfied : f.satisfiedCount start.look = .ok o.satisfiedClauses
  iterations : o.iterations = 2 * ((reach f start).ncard - 1)
  moves : Value.lookup? "moves" o.report.statistics = some (.int ((reach f start).ncard - 1))
  backtracks : Value.lookup? "backtracks" o.report.statistics = some (.int ((reach f start).ncard - 1))
  closedStates : Value.lookup? "closed_states" o.report.statistics = some (.int (reach f start).ncard)
  pathLength : Value.lookup? "path_length" o.report.statistics = some (.int 0)

theorem Explored.exhaustive {t : Task} {s : State} {o : Outcome} {start : Assignment} {ent : List Values}
    (h : Explored t.formula start.values ent s) (hm : t.method = method) (hx : s.phase = .exhausted)
    (he : t.Ended s o) : Exhaustive t.formula start s o := by
  have hvalues := h.values_eq_start hx
  have hhistory := (h.gaveUp hx).1
  have hncard := h.ncard_reach hx
  have hsize := h.size_closed hx
  have hmoves : s.moves = s.backtracks := by
    rw [h.moves_eq, State.depth, hhistory]
    rfl
  have hiter := h.iterations_eq
  have hlook : s.assignment.look = start.look := by
    unfold look Assignment.size
    rw [hvalues]
  have hstat := statistics_eq hm he
  exact
  { closed_iff := fun k => h.mem_closed_iff hx
    finite := by
      rw [h.reach_eq hx]
      exact Finset.finite_toSet _
    values := hvalues
    history := hhistory
    satisfied := hlook ▸ he.satisfied
    iterations := by
      rw [he.iterations]
      omega
    moves := by
      rw [hstat]
      simp [Value.lookup?, hncard]
    backtracks := by
      rw [hstat]
      simp [Value.lookup?, hncard, hmoves]
    closedStates := by
      rw [hstat]
      simp [Value.lookup?, hncard, hsize]
    pathLength := by
      rw [hstat]
      simp [Value.lookup?, hhistory] }

/-- Without limits a greedy solver is exhausted by every formula that cannot be satisfied. -/
theorem exhausted_of_not_satisfiable {s : Solver} (hm : s.method = method) (hs : s.Seeded)
    (hu : s.Uncapped) (hf : ¬ s.formula.Satisfiable) (w : Surroundings) :
    ∃ s' o, s.Returns w s' o ∧ o.status = .exhausted := by
  have hreg : (s.task w).method.Regular := regular hm
  obtain ⟨s', o, ho⟩ := solve?_isSome hm hs hu w
  obtain ⟨q, rest, ht, hq, -, he⟩ := Solver.Returns.ended ⟨_, ho⟩
  have hsc := ht.scored hreg q List.mem_cons_self
  refine ⟨s', o, ⟨_, ho⟩, ?_⟩
  rw [he.status]
  cases hp : q.state.phase with
  | searching => exact absurd hp (hu.not_searching hq)
  | solved => exact absurd ((hsc.solved_iff.1 hp).satisfiable hsc.size) hf
  | exhausted => rfl

/-- **An exhausted greedy solver** has closed exactly what candidate moves lead to from its start, and is
back there; it reports how much that is, at whatever limits. -/
theorem solver_exhausted {s s' : Solver} {w : Surroundings} {o : Outcome} (hm : s.method = method)
    (h : s.Returns w s' o) (hx : o.status = .exhausted) : ∃ start,
      (s.task w).launch s.run = (start, .ok ()) ∧
        Exhaustive s.formula start.state.assignment s'.run.state o := by
  obtain ⟨q, rest, ht, -, hq, he⟩ := h.ended
  obtain ⟨start, hl⟩ := ht.launched
  refine ⟨start, hl, ?_⟩
  rw [hq]
  refine (explored (t := s.task w) hm hl ht).exhaustive hm ?_ he
  rw [he.status, Phase.status_eq_exhausted_iff] at hx
  exact hx

/-- All four clauses over two variables. -/
def allOverTwo : Formula where
  numVariables := 2
  clauses := [⟨[⟨1, false⟩, ⟨0, false⟩], by decide⟩, ⟨[⟨1, false⟩, ⟨0, true⟩], by decide⟩,
    ⟨[⟨1, true⟩, ⟨0, false⟩], by decide⟩, ⟨[⟨1, true⟩, ⟨0, true⟩], by decide⟩]
  comments := []
  inRange := by decide

theorem not_satisfiable_allOverTwo : ¬ allOverTwo.Satisfiable := by
  rw [satisfiable_iff]
  rintro ⟨bs, hlen, h⟩
  obtain ⟨a, b, rfl⟩ := List.length_eq_two.1 hlen
  revert a b
  decide

theorem solver_exhausted_allOverTwo : ∃ s' o start,
    ({ Solver.oneOfTwo method with formula := allOverTwo } : Solver).Returns .still s' o ∧
      Exhaustive allOverTwo start s'.run.state o := by
  obtain ⟨s', o, h, hx⟩ := exhausted_of_not_satisfiable
    (s := { Solver.oneOfTwo method with formula := allOverTwo }) rfl ⟨7, rfl⟩ ⟨rfl, rfl⟩
    not_satisfiable_allOverTwo .still
  obtain ⟨start, -, he⟩ := solver_exhausted rfl h hx
  exact ⟨s', o, start.state.assignment, h, he⟩

end Search.Greedy

end LocalSat
