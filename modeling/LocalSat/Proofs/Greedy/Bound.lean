import Mathlib.Data.Fintype.BigOperators
import LocalSat.Proofs.Greedy.Explored
import LocalSat.Proofs.Returns
import LocalSat.Search.Report

/-!
# How long a greedy run takes

A greedy run enters no values twice, and all that it enters differ in the occurring variables alone,
where each can hold two entries from a random start and three from the unassigned one. So its moves
forward are bounded by the number of such values (`moves_le`), its iterations by twice that, and without
limits it returns (`solve?_isSome`). Main statement: `solver_bounded`.
-/

namespace LocalSat

namespace Search

/-! ## What a variable can hold -/

/-- The entries of a variable in a run from the start values. -/
def Start.entries : Start → Finset (Option Bool)
  | .random => {some false, some true}
  | .unassigned => Finset.univ

/-- The number of entries that a variable can have in a run from the start values. -/
def Start.choices : Start → Nat
  | .random => 2
  | .unassigned => 3

theorem Start.card_entries (st : Start) : st.entries.card = st.choices := by
  cases st <;> rfl

theorem Start.some_mem_entries (st : Start) (b : Bool) : some b ∈ st.entries := by
  cases st <;> cases b <;> simp [Start.entries]

theorem Start.choices_le (st : Start) : st.choices ≤ 3 := by
  cases st <;> decide

theorem Task.startValues_within (t : Task) (g : Random.Generator) :
    ∀ x ∈ (t.startValues g).1.values, x ∈ t.start.entries := by
  unfold Task.startValues
  cases t.start with
  | unassigned => exact fun x _ => Finset.mem_univ x
  | random =>
    intro x hx
    simp only [Assignment.ofBools, List.mem_toArray, List.mem_map] at hx
    obtain ⟨b, -, rfl⟩ := hx
    exact Start.some_mem_entries .random b

namespace Greedy

/-! ## Counting the values that can be reached -/

/-- What the occurring variables hold. -/
def restrict (f : Formula) (vs : Values) : f.vars → Option Bool := fun i => valuation vs i

section
variable {f : Formula} {start u v : Values} {entries : Finset (Option Bool)}

/-- What can be reached from the start values has their length and agrees with them on the variables
that do not occur, and holds none but the given entries. -/
theorem reached_kept (hs : start.size = f.numVariables) (hb : ∀ b : Bool, some b ∈ entries)
    (hin : ∀ x ∈ start, x ∈ entries) (h : Relation.ReflTransGen (Neighbour f) start v) :
    v.size = f.numVariables ∧ (∀ i, 0 ≤ i → i ∉ f.vars → valuation v i = valuation start i) ∧
      ∀ x ∈ v, x ∈ entries := by
  induction h with
  | refl => exact ⟨hs, fun _ _ _ => rfl, hin⟩
  | tail _ hn ih =>
    obtain ⟨hsize, hframe, hwithin⟩ := ih
    exact ⟨hn.size hsize, fun i h0 hi => (hn.frame hsize h0 hi).trans (hframe i h0 hi),
      hn.within hsize hb hwithin⟩

theorem eq_of_valuation (hsize : u.size = v.size)
    (h : ∀ i : Int, 0 ≤ i → valuation u i = valuation v i) : u = v := by
  refine Array.ext hsize fun j hu hv => ?_
  have hj := h j (Int.natCast_nonneg j)
  simpa [valuation, hu, hv] using hj

theorem restrict_mem (hv : v.size = f.numVariables) (hin : ∀ x ∈ v, x ∈ entries) :
    restrict f v ∈ Fintype.piFinset fun _ : f.vars => entries := by
  refine Fintype.mem_piFinset.2 fun ⟨i, hi⟩ => ?_
  obtain ⟨h0, hlt⟩ := Formula.vars_inRange hi
  have hj : i.toNat < v.size := by omega
  refine hin _ ?_
  simp [restrict, valuation, hj]

/-- **Distinct values within reach** are no more than there are ways to fill the occurring variables. -/
theorem length_le_of_reached (hs : start.size = f.numVariables) (hb : ∀ b : Bool, some b ∈ entries)
    (hin : ∀ x ∈ start, x ∈ entries) {ent : List Values} (hnd : ent.Nodup)
    (h : ∀ v ∈ ent, Relation.ReflTransGen (Neighbour f) start v) :
    ent.length ≤ entries.card ^ f.vars.card := by
  -- off the occurring variables all of them agree with the start
  have hinj : ∀ u ∈ ent, ∀ v ∈ ent, restrict f u = restrict f v → u = v := by
    intro u hu v hv he
    obtain ⟨hus, huf, -⟩ := reached_kept hs hb hin (h u hu)
    obtain ⟨hvs, hvf, -⟩ := reached_kept hs hb hin (h v hv)
    refine eq_of_valuation (hus.trans hvs.symm) fun i h0 => ?_
    by_cases hi : i ∈ f.vars
    · exact congrFun he ⟨i, hi⟩
    · rw [huf i h0 hi, hvf i h0 hi]
  have hsub : (ent.map (restrict f)).toFinset ⊆ Fintype.piFinset fun _ : f.vars => entries := by
    intro x hx
    obtain ⟨v, hv, rfl⟩ := List.mem_map.1 (List.mem_toFinset.1 hx)
    obtain ⟨hvs, -, hvin⟩ := reached_kept hs hb hin (h v hv)
    exact restrict_mem hvs hvin
  calc ent.length = (ent.map (restrict f)).toFinset.card := by
        rw [List.toFinset_card_of_nodup (hnd.map_on hinj), List.length_map]
    _ ≤ (Fintype.piFinset fun _ : f.vars => entries).card := Finset.card_le_card hsub
    _ = entries.card ^ f.vars.card := by
        rw [Fintype.card_piFinset, Finset.prod_const, Finset.card_univ, Fintype.card_coe]

end

/-! ## Bounds along trajectories -/

section
variable {t : Task} {r r₀ q : Run} {rest : List Run}

theorem launch_within (hl : t.launch r = (r₀, .ok ())) :
    r₀.values.size = t.formula.numVariables ∧ ∀ x ∈ r₀.values, x ∈ t.start.entries := by
  obtain ⟨g, hg⟩ := Task.generator_of_launch hl
  have hf := Task.fresh_of_launch hg hl
  refine ⟨hf.scored.size, ?_⟩
  rw [Run.values, hf.assignment]
  exact t.startValues_within g

/-- The moves forward that the formula and the start values leave room for. -/
def moveBound (f : Formula) (st : Start) : Nat := st.choices ^ f.vars.card - 1

/-- A greedy run moves forward less often than there are ways to fill the occurring variables. -/
theorem moves_le (hm : t.method = method) (h : t.Trajectory r (q :: rest)) :
    q.state.moves ≤ moveBound t.formula t.start := by
  obtain ⟨r₀, hl⟩ := h.launched
  obtain ⟨hsize, hin⟩ := launch_within hl
  have hE := explored hm hl h
  have hle := length_le_of_reached hsize t.start.some_mem_entries hin hE.entered_nodup hE.reached
  rw [hE.length_entered, t.start.card_entries] at hle
  exact Nat.le_sub_one_of_lt hle

theorem iterations_le (hm : t.method = method) (h : t.Trajectory r (q :: rest)) :
    q.state.iterations ≤ 2 * moveBound t.formula t.start := by
  obtain ⟨r₀, hl⟩ := h.launched
  have hE := explored hm hl h
  have hle := moves_le hm h
  have hi := hE.iterations_eq
  have hmv := hE.moves_eq
  omega

/-- The variables that occur in no clause keep what they held at the start. -/
theorem frame (hm : t.method = method) (hl : t.launch r = (r₀, .ok ())) (h : t.Trajectory r (q :: rest))
    {i : Int} (h0 : 0 ≤ i) (hi : i ∉ t.formula.vars) : valuation q.values i = valuation r₀.values i := by
  obtain ⟨hsize, hin⟩ := launch_within hl
  have hE := explored hm hl h
  exact (reached_kept hsize t.start.some_mem_entries hin (hE.reached _ hE.current_entered)).2.1 i h0 hi

theorem card_vars_le (f : Formula) : f.vars.card ≤ (occurring f).length := by
  have he : f.vars = (occurring f).toFinset := by
    ext i
    simp [Formula.vars, occurring, mem_firstOccurrences]
  rw [he]
  exact List.toFinset_card_le _

end

theorem moveBound_le (f : Formula) (st : Start) : moveBound f st ≤ 3 ^ (occurring f).length := by
  calc moveBound f st ≤ st.choices ^ f.vars.card := Nat.sub_le _ _
    _ ≤ 3 ^ f.vars.card := Nat.pow_le_pow_left st.choices_le _
    _ ≤ 3 ^ (occurring f).length := Nat.pow_le_pow_right (by decide) (card_vars_le f)

/-! ## Greedy solvers -/

section
variable {s : Solver}

/-- A greedy solver without a cap comes to an answer, whatever limits its time. -/
theorem uncapped_solve?_isSome (hm : s.method = method) (hs : s.Seeded)
    (hi : s.settings.maxIterations = .null) (w : Surroundings) : ∃ s' x, s.solve? w = some (s', x) := by
  have hle := moveBound_le s.formula s.settings.start
  have hb : ∀ q rest, (s.task w).Trajectory s.run (q :: rest) →
      q.state.iterations ≤ 2 * moveBound s.formula s.settings.start :=
    fun q rest h => iterations_le (t := s.task w) hm h
  refine Solver.solve?_isSome_of_bound (regular hm) hs hi w hb ?_
  rw [hm]
  show _ ≤ 2 * 3 ^ (occurring s.formula).length + 2
  omega

/-- A greedy solver without limits returns. -/
theorem solve?_isSome (hm : s.method = method) (hs : s.Seeded) (hu : s.Uncapped) (w : Surroundings) :
    ∃ s' o, s.solve? w = some (s', .ok o) := by
  obtain ⟨s', x, hx⟩ := uncapped_solve?_isSome hm hs hu.1 w
  obtain ⟨o, rfl⟩ := hu.answer_ok (regular hm) hs hx
  exact ⟨s', o, hx⟩

/-- What bounds a greedy run that began as `start`, has been through `earlier` and is now `q`. -/
structure Bounded (t : Task) (start q : Run) (earlier : List Run) : Prop where
  moves : q.state.moves ≤ moveBound t.formula t.start
  moves_eq : q.state.moves = forwards (q :: earlier)
  iterations : q.state.iterations ≤ 2 * moveBound t.formula t.start
  rounds : earlier.length = q.state.iterations + if q.state.phase = .exhausted then 1 else 0
  frame : ∀ i, 0 ≤ i → i ∉ t.formula.vars → valuation q.values i = valuation start.values i

theorem bounded {t : Task} {r start q : Run} {rest : List Run} (hm : t.method = method)
    (hl : t.launch r = (start, .ok ())) (h : t.Trajectory r (q :: rest)) : Bounded t start q rest := by
  have hent := (explored hm hl h).length_entered
  rw [length_entered] at hent
  exact
  { moves := moves_le hm h
    moves_eq := (Nat.succ.inj hent).symm
    iterations := iterations_le hm h
    rounds := h.length_eq (regular hm)
    frame := fun i h0 hi => frame hm hl h h0 hi }

/-- **A greedy run is bounded** by the number of ways to fill the variables that occur, at whatever
limits; without limits the solver returns. -/
theorem solver_bounded (hm : s.method = method) (hs : s.Seeded) (w : Surroundings) :
    (s.Uncapped → ∃ s' o, s.solve? w = some (s', .ok o)) ∧
      (∃ start, (s.task w).launch s.run = (start, .ok ()) ∧
        ∀ q rest, (s.task w).Trajectory s.run (q :: rest) → Bounded (s.task w) start q rest) ∧
      ∀ s' o, s.Returns w s' o → o.iterations ≤ 2 * moveBound s.formula s.settings.start ∧
        ∃ n : Nat, Value.lookup? "moves" o.report.statistics = some (.int n) ∧
          n ≤ moveBound s.formula s.settings.start := by
  have hm' : (s.task w).method = method := hm
  have hle : ∀ q rest, (s.task w).Trajectory s.run (q :: rest) →
      q.state.moves ≤ moveBound s.formula s.settings.start ∧
        q.state.iterations ≤ 2 * moveBound s.formula s.settings.start :=
    fun q rest ht => ⟨moves_le (t := s.task w) hm' ht, iterations_le (t := s.task w) hm' ht⟩
  refine ⟨fun hu => solve?_isSome hm hs hu w, ?_, fun s' o h => ?_⟩
  · obtain ⟨g, hg⟩ := hs.generator w
    obtain ⟨start, hl, -⟩ := Task.launch_eq hg s.run
    exact ⟨start, hl, fun q rest ht => bounded hm' hl ht⟩
  · obtain ⟨q, rest, ht, -, -, he⟩ := h.ended
    refine ⟨by rw [he.iterations]; exact (hle q rest ht).2, q.state.moves, ?_, (hle q rest ht).1⟩
    rw [Outcome.report, he.counters, Task.counters, hm']
    simp [Value.lookup?, method, counters]

end

theorem solver_bounded_oneOfTwo : ∃ s' o,
    (Solver.oneOfTwo method).solve? .still = some (s', .ok o) ∧ o.iterations ≤ 16 := by
  obtain ⟨hsome, -, hbound⟩ := solver_bounded (s := Solver.oneOfTwo method) rfl ⟨7, rfl⟩ .still
  obtain ⟨s', o, h⟩ := hsome ⟨rfl, rfl⟩
  have hle := (hbound s' o ⟨_, h⟩).1
  have h8 : moveBound (Solver.oneOfTwo method).formula (Solver.oneOfTwo method).settings.start = 8 := by
    decide
  rw [h8] at hle
  exact ⟨s', o, h, hle⟩

end Greedy

end Search

end LocalSat
