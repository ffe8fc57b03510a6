import LocalSat.Proofs.Benchmark
import LocalSat.Proofs.Benchmark.Summary
import LocalSat.Proofs.Config
import LocalSat.Proofs.Independence

/-!
# The rows of a benchmark

The trials of a plan stand in nested order, so the place of a combination is told by its three indices
(`getElem?_trials`). A solver for a trial that cannot fail and is capped gives a row, and the row is what
the trial comes to alone: what was run before it has left a later clock and nothing else. Main statement:
under a cap a benchmark has one such row for each combination, and its summary accounts for them
(`run_accounts`). Cap and seeds must not have too many digits, since both are logged.
-/

namespace LocalSat

open LocalSat.Search

namespace Solver

variable {s s' : Solver} {w : Surroundings} {o : Outcome}

/-- A fit solver that is bounded comes to an outcome. -/
theorem Fit.solve?_ok (h : s.Fit) (hb : s.Bounded) (w : Surroundings) :
    ∃ s' o, s.solve? w = some (s', .ok o) := by
  obtain ⟨⟨s', x⟩, hs⟩ := h.solve?_isSome hb w
  obtain ⟨o, rfl⟩ := answer_ok h.method h.seeded h.numeric h.notable hs
  exact ⟨s', o, hs⟩

/-- What is reported as the least number of unsatisfied clauses. -/
theorem Returns.best (h : s.Returns w s' o) :
    Value.lookup? "best_unsatisfied" o.report.statistics = some (.int s'.run.state.best) := by
  obtain ⟨q, rest, -, -, hq, he⟩ := h.ended
  rw [Outcome.report, he.counters, Task.counters, hq]
  rfl

end Solver

namespace Benchmark

/-! ## Nested order -/

/-- The place of an entry among blocks of one length. -/
theorem getElem?_blocks {α β : Type} {f : α → List β} {n k : Nat} (hf : ∀ x, (f x).length = n)
    (hk : k < n) : ∀ (xs : List α) (i : Nat),
      (xs.flatMap f)[i * n + k]? = xs[i]?.bind fun x => (f x)[k]?
  | [], i => by simp
  | x :: xs, 0 => by
    rw [List.flatMap_cons, List.getElem?_append_left (by rw [hf]; omega), Nat.zero_mul, Nat.zero_add]
    rfl
  | x :: xs, i + 1 => by
    have hi : (i + 1) * n + k = n + (i * n + k) := by rw [Nat.succ_mul]; omega
    rw [List.flatMap_cons, List.getElem?_append_right (by rw [hf]; omega), hf, hi,
      Nat.add_sub_cancel_left, getElem?_blocks hf hk xs i]
    rfl

section
variable {p : Plan} {f : Formula} {a : String} {v : Value} {i j k : Nat}

theorem getElem?_trialsOn (ha : p.algorithms[j]? = some a) (hv : p.seeds[k]? = some v) (index : Nat)
    (f : Formula) : (p.trialsOn index f)[j * p.seeds.length + k]? = some ⟨index, f, a, v⟩ := by
  have hk : k < p.seeds.length := (List.getElem?_eq_some_iff.1 hv).1
  unfold Plan.trialsOn
  rw [getElem?_blocks (fun _ => List.length_map _) hk, ha, Option.bind_some, List.getElem?_map, hv]
  rfl

theorem trialsFrom_eq (p : Plan) : ∀ (fs : List Formula) (index : Nat),
    p.trialsFrom index fs = (fs.zipIdx index).flatMap fun x => p.trialsOn x.2 x.1
  | [], _ => rfl
  | f :: fs, index => by
    rw [Plan.trialsFrom, trialsFrom_eq p fs, List.zipIdx_cons, List.flatMap_cons]

/-- **The place of a combination** in nested order. -/
theorem getElem?_trials (hf : p.formulas[i]? = some f) (ha : p.algorithms[j]? = some a)
    (hv : p.seeds[k]? = some v) :
    p.trials[(i * p.algorithms.length + j) * p.seeds.length + k]? = some ⟨i, f, a, v⟩ := by
  have hj : j < p.algorithms.length := (List.getElem?_eq_some_iff.1 ha).1
  have hk : k < p.seeds.length := (List.getElem?_eq_some_iff.1 hv).1
  have hin : j * p.seeds.length + k < p.algorithms.length * p.seeds.length :=
    calc j * p.seeds.length + k < (j + 1) * p.seeds.length := by rw [Nat.succ_mul]; omega
      _ ≤ p.algorithms.length * p.seeds.length := Nat.mul_le_mul_right _ hj
  have hblock : ∀ x : Formula × Nat,
      (p.trialsOn x.2 x.1).length = p.algorithms.length * p.seeds.length :=
    fun x => p.length_trialsOn x.2 x.1
  rw [Nat.add_mul, Nat.mul_assoc, Nat.add_assoc, Plan.trials, trialsFrom_eq, getElem?_blocks hblock hin,
    List.getElem?_zipIdx, hf]
  simpa using getElem?_trialsOn ha hv i f

end

/-! ## What a benchmark is to give -/

/-- The algorithms are registered searches, the seeds are natural numbers, and the iterations of every run
are capped by an integer, its time by nothing; seeds and cap can be printed. -/
structure Plan.Capped (p : Plan) (r : Registry) : Prop where
  registered : ∀ a ∈ p.algorithms, r.lookUp? a = some .greedy ∨ r.lookUp? a = some .walk
  seeds : ∀ v ∈ p.seeds, ∃ n : Nat, v = .int n ∧ Text.Printable n
  maxIterations : ∃ M : Int, p.maxIterations = .int M ∧ Text.Printable M
  timeout : p.timeout = .null

/-- The row is what a fresh solver for its combination comes to alone, but for the time: whatever the
clock, and however often it has been read before. -/
def Row.Alone (x : Row) (r : Registry) (c : Config) (p : Plan) : Prop :=
  ∀ readings w, ∃ s s' o,
    Solver.create r c x.trial.formula (.text x.trial.algorithm) (p.options x.trial) readings = .ok s ∧
    s.solve? w = some (s', .ok o) ∧ x.outcome.Agrees o ∧
    Value.lookup? "best_unsatisfied" o.report.statistics = some (.int x.best)

/-- There is one row for each combination, in nested order, and each row stands for its trial alone. -/
structure Tabulates (rows : List Row) (r : Registry) (c : Config) (p : Plan) : Prop where
  length : rows.length = p.formulas.length * p.algorithms.length * p.seeds.length
  place : ∀ i j k f a v, p.formulas[i]? = some f → p.algorithms[j]? = some a → p.seeds[k]? = some v →
    (rows.map Row.trial)[(i * p.algorithms.length + j) * p.seeds.length + k]? = some ⟨i, f, a, v⟩
  alone : ∀ x ∈ rows, x.Alone r c p

section
variable {p : Plan} {r : Registry} {t : Trial} {M : Int} {n : Nat}

/-! ## The solver of a trial -/

/-- The defaults are what has been laid over by nothing. -/
theorem get_defaults (key : String) (h : key ∈ Config.keys) (fallback : Value) :
    Config.defaults.get key fallback = Config.reading fallback (Config.initial key) := by
  have hnone : ∀ x ∈ ([] : List (String × Value)), x.1 ∈ Config.keys ∧ Config.Plain x.2 := by simp
  exact Config.get_setAll hnone h fallback

/-- The settings of a trial, the start values being random by default. -/
theorem ofOptions_defaults (hv : t.seed = .int n) (hM : p.maxIterations = .int M) (ht : p.timeout = .null) :
    Settings.ofOptions .defaults (p.options t) = .ok ⟨.int n, .text "random", .int M, .null⟩ := by
  have hstart : Settings.startOption .defaults (p.options t) = .text "random" :=
    get_defaults "solver.initialization" (by decide) (.text "random")
  have hseed : Settings.option .defaults (p.options t) "seed" (.int 0) = .int n := by
    rw [Plan.options, hv]
    rfl
  have hcap : Settings.option .defaults (p.options t) "max_iterations" .null = .int M := by
    rw [Plan.options, hM]
    rfl
  have htime : Settings.option .defaults (p.options t) "timeout" .null = .null := by
    rw [Plan.options, ht]
    exact get_defaults "solver.timeout" (by decide) .null
  have hknown : (p.options t).find? (fun x => !Settings.optionNames.contains x.1) = none := by
    simp [Plan.options, Settings.optionNames]
  unfold Settings.ofOptions
  rw [hknown]
  simp only [hstart, hseed, hcap, htime]
  rfl

/-- The solver of a trial. -/
theorem create_eq_ok {kind : SolverKind} {m : Method} {g : Random.Generator}
    (hkind : r.lookUp? t.algorithm = some kind) (hm : kind.method? = some m) (hv : t.seed = .int n)
    (hM : p.maxIterations = .int M) (ht : p.timeout = .null) (hg : Random.Generator.ofValue (.int n) = .ok g)
    (k : Nat) : Solver.create r .defaults t.formula (.text t.algorithm) (p.options t) k =
      .ok ⟨m, t.formula, ⟨.int n, .text "random", .int M, .null⟩, ⟨.initial t.formula g, k, []⟩⟩ := by
  have hfind : r.find .defaults (.text t.algorithm) = .ok kind := by
    simp only [Registry.find, hkind]
  rw [Solver.create_eq hfind hm (ofOptions_defaults hv hM ht), Solver.make]
  simp only [hg]

/-- Every trial has its solver, which is told from that of another time by the readings of the clock. -/
theorem create_trial (h : p.Capped r) (ht : t ∈ p.trials) : ∃ solver : Nat → Solver, ∀ k,
    Solver.create r .defaults t.formula (.text t.algorithm) (p.options t) k = .ok (solver k) ∧
      (solver k).Fit ∧ (solver k).Bounded ∧ ∀ k', (solver k).SameTask (solver k') := by
  obtain ⟨ha, hv⟩ := mem_trials ht
  obtain ⟨n, hn, -⟩ := h.seeds _ hv
  obtain ⟨M, hM, hprint⟩ := h.maxIterations
  obtain ⟨g, hg⟩ := Solver.generator_of_natural (rfl : Value.int (n : Int) = .int n)
  obtain ⟨kind, m, hkind, hm, hmethod⟩ : ∃ kind m, r.lookUp? t.algorithm = some kind ∧
      kind.method? = some m ∧ (m = Greedy.method ∨ m = Walk.method) := by
    rcases h.registered _ ha with hkind | hkind
    · exact ⟨.greedy, _, hkind, rfl, .inl rfl⟩
    · exact ⟨.walk, _, hkind, rfl, .inr rfl⟩
  refine ⟨fun k => ⟨m, t.formula, ⟨.int n, .text "random", .int M, .null⟩, ⟨.initial t.formula g, k, []⟩⟩,
    fun k => ⟨create_eq_ok hkind hm hn hM h.timeout hg k, ?fit, .inr ⟨M, rfl⟩, fun _ => ?same⟩⟩
  case fit =>
    exact
    { method := hmethod
      seeded := ⟨n, rfl⟩
      numeric := ⟨.inr ⟨.int M, rfl⟩, .inl rfl⟩
      notable := ⟨hprint, trivial⟩ }
  case same =>
    exact
    { method := rfl
      formula := rfl
      seed := rfl
      initialization := rfl
      maxIterations := rfl
      timeout := rfl
      timeout' := rfl }

/-! ## Running the trials -/

/-- A trial whose solver comes to an outcome adds the row of it, and logs its seed. -/
theorem runTrial_of_solve (solve : Solver → Option (Solver × Except Failure Outcome)) {c : Config}
    {s : Progress} {solver solver' : Solver} {o : Outcome}
    (hc : Solver.create r c t.formula (.text t.algorithm) (p.options t) s.readings = .ok solver)
    (hs : solve solver = some (solver', .ok o)) (hp : t.seed.printable = true) :
    ∃ s', runTrial solve r c p t s = some (s', .ok ()) ∧
      s'.rows = ⟨t, o, solver'.run.state.best⟩ :: s.rows := by
  unfold runTrial
  rw [hc]
  simp only [hs, bind, Option.bind_some, hp, if_true]
  exact ⟨_, rfl, rfl⟩

/-- The step: a trial adds its row to those that are there. -/
theorem runTrial_eq (h : p.Capped r) (ht : t ∈ p.trials) (clock : Nat → Float) (s : Progress) :
    ∃ (s' : Progress) (x : Row),
      runTrial (fun s => s.solve? ⟨clock, false⟩) r .defaults p t s = some (s', .ok ()) ∧
        s'.rows = x :: s.rows ∧ x.trial = t ∧ x.Alone r .defaults p := by
  obtain ⟨solver, hsolver⟩ := create_trial h ht
  obtain ⟨hcreate, hfit, hbounded, hsame⟩ := hsolver s.readings
  obtain ⟨g, hg⟩ := hfit.seeded.generator ⟨clock, false⟩
  obtain ⟨s₁, o, ho⟩ := hfit.solve?_ok hbounded ⟨clock, false⟩
  have hob := Solver.oblivious_of_method hfit.method
  have hprint : t.seed.printable = true := by
    obtain ⟨n, hn, hp⟩ := h.seeds _ (mem_trials ht).2
    rw [hn]
    exact Value.printable_int.2 hp
  obtain ⟨s', hrun, hrows⟩ := runTrial_of_solve (fun s => s.solve? ⟨clock, false⟩) hcreate ho hprint
  refine ⟨s', _, hrun, hrows, rfl, fun k w => ?_⟩
  obtain ⟨s₂, o', ho', hagrees, hstate⟩ := (hsame k).solve?_ok hob hg ho w
  have hbest := Solver.Returns.best ⟨_, ho'⟩
  rw [hstate] at hbest
  exact ⟨solver k, s₂, o', (hsolver k).1, ho', hagrees, hbest⟩

/-- The run: trials in order give their rows in order, upon those that are there. -/
theorem runTrials_eq (h : p.Capped r) (clock : Nat → Float) : ∀ {ts : List Trial} (s : Progress),
    (∀ t ∈ ts, t ∈ p.trials) →
      ∃ (s' : Progress) (xs : List Row),
        runTrials (fun s => s.solve? ⟨clock, false⟩) r .defaults p ts s = some (s', .ok ()) ∧
          s'.rows = xs.reverse ++ s.rows ∧ xs.map Row.trial = ts ∧ ∀ x ∈ xs, x.Alone r .defaults p
  | [], s, _ => ⟨s, [], rfl, rfl, rfl, by simp⟩
  | t :: ts, s, hts => by
    obtain ⟨s₁, x, hx, hrows, ht, halone⟩ := runTrial_eq h (hts t List.mem_cons_self) clock s
    obtain ⟨s₂, xs, hxs, hrows', hts', halones⟩ :=
      runTrials_eq h clock s₁ fun t ht => hts t (List.mem_cons_of_mem _ ht)
    refine ⟨s₂, x :: xs, ?_, ?_, ?_, ?_⟩
    · simp only [runTrials, hx]
      exact hxs
    · rw [hrows', hrows, List.reverse_cons, List.append_assoc]
      rfl
    · rw [List.map_cons, ht, hts']
    · exact List.forall_mem_cons.2 ⟨halone, halones⟩

theorem tabulates_of_trials {rows : List Row} {c : Config} (ht : rows.map Row.trial = p.trials)
    (ha : ∀ x ∈ rows, x.Alone r c p) : Tabulates rows r c p where
  length := by rw [← rows.length_map, ht, p.length_trials, Nat.mul_assoc]
  place i j k f a v hf hj hk := by rw [ht]; exact getElem?_trials hf hj hk
  alone := ha

/-- **A benchmark accounts for every run** under the default configuration: it comes to one row for each
formula, algorithm and seed, each row being what its combination comes to alone, and the summary of the
rows accounts for them. -/
theorem run_accounts (h : p.Capped r) (clock : Nat → Float) :
    ∃ records rows, run? r .defaults clock p = some (records, .ok rows) ∧ Tabulates rows r .defaults p ∧
      AccountsFor (summarize (rows.map Row.score)) (rows.map Row.score) := by
  obtain ⟨s, rows, hrun, hrows, htrials, halone⟩ := runTrials_eq h clock ⟨0, [], []⟩ fun _ ht => ht
  refine ⟨s.records.reverse, rows, ?_, tabulates_of_trials htrials halone, accountsFor_summarize _⟩
  simp only [run?, run, hrun]
  show some (s.records.reverse, Except.ok s.rows.reverse) = _
  rw [hrows, List.append_nil, List.reverse_reverse]

end

/-- A formula with a model and one without, an algorithm that is named twice, and a cap that stops runs. -/
def mixed : Plan where
  formulas := [.oneOfTwo, Greedy.allOverTwo]
  algorithms := ["random", "greedy", "random"]
  seeds := [.int 0, .int 7]
  maxIterations := .int 1
  timeout := .null

theorem run_accounts_mixed : ∃ records rows,
    run? .standard .defaults Surroundings.still.clock mixed = some (records, .ok rows) ∧
      rows.length = 12 ∧
      (rows.map Row.trial)[9]? = some ⟨1, Greedy.allOverTwo, "greedy", .int 7⟩ ∧
      "greedy" ∈ (summarize (rows.map Row.score)).map (·.algorithm) ∧
      ((summarize (rows.map Row.score)).map (·.runs)).sum = 12 := by
  have hcapped : mixed.Capped .standard := by
    refine ⟨fun a ha => ?_, fun v hv => ?_, ⟨1, rfl, by decide +kernel⟩, rfl⟩
    · simp only [mixed, List.mem_cons, List.not_mem_nil, or_false] at ha
      rcases ha with rfl | rfl | rfl
      · exact .inr rfl
      · exact .inl rfl
      · exact .inr rfl
    · simp only [mixed, List.mem_cons, List.not_mem_nil, or_false] at hv
      rcases hv with rfl | rfl
      · exact ⟨0, rfl, by decide +kernel⟩
      · exact ⟨7, rfl, by decide +kernel⟩
  obtain ⟨records, rows, hrun, htable, hsummary⟩ := run_accounts hcapped Surroundings.still.clock
  have hrow := htable.place 1 1 1 _ _ _ rfl rfl rfl
  obtain ⟨x, hx, htrial⟩ := List.mem_map.1 (List.mem_of_getElem? hrow)
  refine ⟨records, rows, hrun, htable.length, hrow, (hsummary.mem_iff _).2 ?_, ?_⟩
  · exact ⟨x.score, List.mem_map_of_mem hx, by rw [Row.score, htrial]⟩
  · rw [hsummary.total, List.length_map, htable.length]
    rfl

/-- A walk on a formula without a model, under a cap of too many digits. -/
def longCapped : Plan where
  formulas := [Greedy.allOverTwo]
  algorithms := ["random"]
  seeds := [.int 0]
  maxIterations := .int (-Text.beyondDigits)
  timeout := .null

/-- There is no table of runs that come up to a cap of too many digits. -/
theorem longCapped_fails : ∃ records,
    run? .standard .defaults Surroundings.still.clock longCapped = some (records, .error .tooLong) := by
  obtain ⟨g, hg⟩ := Solver.generator_of_natural (rfl : Value.int ((0 : Nat) : Int) = .int (0 : Nat))
  let t : Trial := ⟨0, Greedy.allOverTwo, "random", .int 0⟩
  let solver : Solver := ⟨Walk.method, Greedy.allOverTwo,
    ⟨.int (0 : Nat), .text "random", .int (-Text.beyondDigits), .null⟩, ⟨.initial Greedy.allOverTwo g, 0, []⟩⟩
  have hkind : Registry.standard.lookUp? t.algorithm = some .walk := rfl
  have hcreate : Solver.create .standard .defaults t.formula (.text t.algorithm) (longCapped.options t) 0 =
      .ok solver := create_eq_ok hkind rfl rfl rfl rfl hg 0
  have hcut := Solver.walk_cutOff (s := solver) rfl ⟨0, rfl⟩ Greedy.not_satisfiable_allOverTwo
    (-Text.beyondDigits)
  obtain ⟨s', hs'⟩ := hcut.balks
    Text.not_printable_neg_beyondDigits ⟨Surroundings.still.clock, false⟩
  have hsolve : solver.solve? ⟨Surroundings.still.clock, false⟩ = some (s', .error .tooLong) := hs'
  have htrials : longCapped.trials = [t] := rfl
  rw [run?, run, htrials, runTrials, runTrial, hcreate]
  simp only [hsolve]
  exact ⟨_, rfl⟩

end Benchmark

end LocalSat
