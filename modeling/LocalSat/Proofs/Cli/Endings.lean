import LocalSat.Proofs.Benchmark
import LocalSat.Proofs.Cli.Settings
import LocalSat.Proofs.Cli.Solving
import LocalSat.Proofs.RandomKSat

/-!
# How the program ends

Under literal arguments the program ends with a code, unless one of the failures that `Escapes` lists gets
through: a negative seed for a file with a formula, or numbers that no instance of the benchmark has. Each
step between the arguments and the end either succeeds, or fails in a way that is logged. Main statement:
`run_ends`.
-/

namespace LocalSat.Cli

open LocalSat.Search

/-! ## Failures that escape -/

/-- The number of clauses that each instance of the benchmark is to have. -/
def Arguments.clauseCount (a : Arguments) : Except ConversionError Int :=
  match Value.realOfInteger (a.integer "benchmark.num_variables") with
  | .error e => .error e
  | .ok size => Value.roundReal (size * a.real "benchmark.clause_ratio")

/-- The benchmark has no instances, for this reason. -/
inductive Arguments.Misfit (a : Arguments) : Failure → Prop
  | count {e : ConversionError} (h : a.clauseCount = .error e) : a.Misfit (.conversion e)
  | refused {m : Int} {e : RandomKSat.Error} (h : a.clauseCount = .ok m)
      (some : 0 < a.integer "benchmark.instances")
      (numbers : RandomKSat.Refused (a.integer "benchmark.num_variables") m
        (a.integer "benchmark.clause_size") e) : a.Misfit (.ofRandomKSat e)

/-- The failures that no one on the way to the end of the program expects. -/
inductive Arguments.Escapes (a : Arguments) (tree : FileTree) : Failure → Prop
  | seed {path : String} {f : Formula} (hc : a.command = .solve path)
      (hl : Dimacs.load tree path = .ok f) (hs : a.integer "solver.seed" < 0) :
      a.Escapes tree (.random .negativeSeed)
  | numbers {e : Failure} (hc : a.command = .benchmark) (h : a.Misfit e) : a.Escapes tree e

section
variable {a : Arguments} {tree : FileTree} {e : Failure} {n m k : Int}

theorem isExpected_of_refused {e : RandomKSat.Error} (h : RandomKSat.Refused n m k e) :
    (Failure.ofRandomKSat e).isExpected = false := by
  cases h <;> rfl

theorem Arguments.Escapes.isExpected (h : a.Escapes tree e) : e.isExpected = false := by
  cases h with
  | seed => rfl
  | numbers hc h =>
    cases h with
    | count => rfl
    | refused hm hi hr => exact isExpected_of_refused hr

end

/-- The search is greedy, or a cap is given. -/
def Arguments.Capped (a : Arguments) : Prop :=
  a.value "solver.name" = .text Greedy.method.name ∨ ∃ M, a.value "solver.max_iterations" = .int M

/-! ## Making solvers -/

section
variable {args : List String} {a : Arguments} {c : Config} {f : Formula} {name : Value} {t : Settings}
  {options : List (String × Value)}

/-- The settings by options that are known, with start values that are known. -/
theorem ofOptions_eq (hknown : ∀ x ∈ options, x.1 ∈ Settings.optionNames)
    (hstart : ∃ s ∈ Config.initializations, Settings.startOption c options = .text s) :
    Settings.ofOptions c options = .ok {
      seed := Settings.option c options "seed" (.int 0)
      initialization := Settings.startOption c options
      maxIterations := Settings.option c options "max_iterations" .null
      timeout := Settings.option c options "timeout" .null } := by
  obtain ⟨s, hs, hstart⟩ := hstart
  have hcheck : Config.checkInitialization (.text s) = .ok (.text s) := by
    simp only [Config.initializations, List.mem_cons, List.not_mem_nil, or_false] at hs
    rcases hs with rfl | rfl <;> rfl
  unfold Settings.ofOptions
  split
  · rename_i hfind
    have hunknown := List.find?_some hfind
    simp [hknown _ (List.mem_of_find?_eq_some hfind)] at hunknown
  · simp only [hstart, hcheck]
    rfl

/-- The name leads to the greedy search or to the walk. -/
theorem exists_kind {s : String} (hs : s ∈ Registry.standard.names)
    (hname : name = .text s ∨ name = .null ∧ c.get "solver.name" (.text Greedy.method.name) = .text s) :
    ∃ k m, Registry.standard.find c name = .ok k ∧ k.method? = some m ∧
      (m = Greedy.method ∨ m = Walk.method) ∧ (s = Greedy.method.name → m = Greedy.method) := by
  have hfind : ∀ k, Registry.standard.lookUp? s = some k → Registry.standard.find c name = .ok k := by
    intro k hk
    unfold Registry.find
    rcases hname with rfl | ⟨rfl, hc⟩
    · simp only [hk]
    · simp only [hc, hk]
  rcases mem_names.1 hs with rfl | rfl
  · exact ⟨_, _, hfind .greedy rfl, rfl, .inl rfl, fun _ => rfl⟩
  · exact ⟨_, _, hfind .walk rfl, rfl, .inr rfl, fun h => absurd h (by decide)⟩

/-- **A solver** under an integer seed and limits that can be printed is fit, unless the seed is
negative. -/
theorem create_fit {s : String} {n : Int} (hs : s ∈ Registry.standard.names)
    (hname : name = .text s ∨ name = .null ∧ c.get "solver.name" (.text Greedy.method.name) = .text s)
    (ht : Settings.ofOptions c options = .ok t) (hn : t.seed = .int n)
    (hcap : t.maxIterations = .null ∨ ∃ M, t.maxIterations = .int M)
    (htime : t.timeout = .null ∨ ∃ x, t.timeout.number? = some x)
    (hprint : t.maxIterations.printable = true ∧ t.timeout.printable = true) (f : Formula) (readings : Nat) :
    (n < 0 ∧ Solver.create .standard c f name options readings = .error (.random .negativeSeed)) ∨
      (0 ≤ n ∧ ∃ solver, Solver.create .standard c f name options readings = .ok solver ∧ solver.Fit ∧
        (s = Greedy.method.name ∨ (∃ M, t.maxIterations = .int M) → solver.Bounded)) := by
  obtain ⟨k, m, hk, hm, hmethod, hgreedy⟩ := exists_kind hs hname
  rw [Solver.create_eq hk hm ht]
  unfold Solver.make
  rw [hn, Random.Generator.ofValue_int]
  by_cases hneg : n < 0
  · rw [if_pos hneg]
    exact .inl ⟨hneg, rfl⟩
  · rw [if_neg hneg]
    refine .inr ⟨by omega, _, rfl, ⟨hmethod, ⟨n.toNat, ?seed⟩, ⟨?cap, htime⟩, ?notable⟩, fun hb => ?bounded⟩
    case seed => rw [hn, Int.toNat_of_nonneg (by omega)]
    case cap => exact hcap.imp_right fun ⟨M, hM⟩ => ⟨.int M, by simp only [hM]; rfl⟩
    case notable => exact ⟨Solver.printable_limit hprint.1, Solver.printable_limit hprint.2⟩
    case bounded =>
      rcases hcap with hnull | hM
      · rcases hb with hb | ⟨M, hM⟩
        · exact .inl ⟨hgreedy hb, hnull⟩
        · rw [hnull] at hM
          cases hM
      · exact .inr hM

theorem Arguments.Reads.startOption (h : a.Reads c) (hp : parse args = .ok a)
    (hnone : Value.lookup? "initialization" options = none) :
    ∃ s ∈ Config.initializations, Settings.startOption c options = .text s := by
  unfold Settings.startOption
  rw [hnone]
  obtain ⟨s, hs, -, hget⟩ := h.get_choice hp (by decide) (rfl : formFor "solver.initialization" = _)
    ⟨"random", by decide, rfl⟩ (by decide) (.text "random")
  exact ⟨s, hs, hget⟩

theorem Arguments.Reads.get_seed (h : a.Reads c) (hp : parse args = .ok a) :
    c.get "solver.seed" (.int 0) = .int (a.integer "solver.seed") :=
  h.get_integer hp (by decide) rfl ⟨0, rfl⟩ _

theorem Arguments.Reads.get_name (h : a.Reads c) (hp : parse args = .ok a) :
    ∃ s ∈ Registry.standard.names, a.value "solver.name" = .text s ∧
      c.get "solver.name" (.text Greedy.method.name) = .text s := by
  have hform : formFor "solver.name" = some (.choice Registry.standard.names) := rfl
  have hset : Config.toBeGiven ∉ Registry.standard.names := by
    intro hmem
    rcases mem_names.1 hmem with h | h <;> exact absurd h (by decide)
  exact h.get_choice hp (by decide) hform ⟨Greedy.method.name, mem_names.2 (.inl rfl), rfl⟩ hset _

/-- The solver for a file. -/
theorem Arguments.Reads.create_cases (h : a.Reads c) (hp : parse args = .ok a) (f : Formula) :
    (a.integer "solver.seed" < 0 ∧
        Solver.create .standard c f .null [] 0 = .error (.random .negativeSeed)) ∨
      (0 ≤ a.integer "solver.seed" ∧ ∃ solver, Solver.create .standard c f .null [] 0 = .ok solver ∧
        solver.Fit ∧ (a.Capped → solver.Bounded)) := by
  obtain ⟨s, hs, hv, hname⟩ := h.get_name hp
  obtain ⟨hget, hcap⟩ := h.get_cap hp
  have hknown : ∀ x ∈ ([] : List (String × Value)), x.1 ∈ Settings.optionNames := by simp
  have ht := ofOptions_eq hknown (h.startOption hp rfl)
  have hprint : (c.get "solver.max_iterations" .null).printable = true ∧
      (c.get "solver.timeout" .null).printable = true :=
    ⟨h.printable hp (by decide) rfl, h.printable hp (by decide) rfl⟩
  refine (create_fit hs (.inr ⟨rfl, hname⟩) ht (h.get_seed hp) (by rw [← hget] at hcap; exact hcap)
    (h.get_timeout hp) hprint f 0).imp_right fun ⟨hn, solver, hcreate, hfit, hb⟩ => ?_
  refine ⟨hn, solver, hcreate, hfit, fun hc => hb ?_⟩
  rcases hc with hc | ⟨M, hM⟩
  · rw [hv] at hc
    exact .inl (Value.text.inj hc)
  · exact .inr ⟨M, hget.trans hM⟩

end

/-! ## Recording a run -/

section
variable {α : Type} {clock : Nat → Float} {solver : Solver} {j : Events.Journal} {run reading : Nat}
  {e : Failure} {o : Outcome} {s : Session}

/-- Closing event files gives the result, or fails because of a file. -/
theorem closing_cases (j : Events.Journal) (s : Session) (r : Except Failure α) :
    (closing j s r).2 = r ∨ ∃ fe, (closing j s r).2 = .error (.file fe) := by
  unfold closing
  split
  · exact .inl rfl
  · exact .inr ⟨_, rfl⟩

/-- A failure that ends a run stays, or a file takes its place. -/
theorem abandon_cases (clock : Nat → Float) (j : Events.Journal) (run reading : Nat) (e : Failure)
    (s : Session) : (abandon (α := α) clock j run reading e s).2 = .error e ∨
      ∃ fe, (abandon (α := α) clock j run reading e s).2 = .error (.file fe) := by
  unfold abandon
  simp only
  split
  · exact closing_cases _ _ _
  · rcases closing_cases (α := α) _ _ (.error (.file _)) with h | h
    · exact .inr ⟨_, h⟩
    · exact .inr h

/-- An outcome that is recorded stays, or a file takes its place. -/
theorem account_cases (clock : Nat → Float) (solver : Solver) (journal : Option Events.Journal)
    (o : Outcome) (s : Session) : (account clock solver journal (.ok o) s).2 = .ok o ∨
      ∃ fe, (account clock solver journal (.ok o) s).2 = .error (.file fe) := by
  unfold account
  cases journal with
  | none => exact .inl rfl
  | some j =>
    simp only
    split
    · rcases abandon_cases (α := Outcome) clock _ _ _ (.file _) _ with h | h
      · exact .inr ⟨_, h⟩
      · exact .inr h
    · exact closing_cases _ _ _

end

/-! ## Solving a file -/

/-- The host tells the time, and answers about every solver that is fit and bounded. -/
structure Host.Prompt (h : Host Option) : Prop where
  solve : ∀ recorded (s : Solver), s.Fit → s.Bounded → ∃ x, h.solve recorded s = some x
  clock : ∃ clock, h.clock = some clock

theorem Host.prompt_ofClock (clock : Nat → Float) : (Host.ofClock clock).Prompt where
  solve recorded _ hf hb := hf.solve?_isSome hb ⟨clock, recorded⟩
  clock := ⟨clock, rfl⟩

/-- A code below the one of a failure, a failure that is logged, or one that escapes. -/
def Arguments.Settles (a : Arguments) (tree : FileTree) (r : Except Failure Nat) : Prop :=
  (∃ n < codeError, r = .ok n) ∨ ∃ e, r = .error e ∧ (e.isExpected = true ∨ a.Escapes tree e)

section
variable {args : List String} {a : Arguments} {c : Config} {path : String} {h : Host Option}
  {tree : FileTree} {r : Except Failure Nat} {e : Failure} {f : Formula} {s : Session}

theorem settles_expected (he : e.isExpected = true) : a.Settles tree (.error e) :=
  .inr ⟨e, rfl, .inl he⟩

theorem settles_escape (he : a.Escapes tree e) : a.Settles tree (.error e) :=
  .inr ⟨e, rfl, .inr he⟩

theorem outcomeCode_lt (o : Outcome) : outcomeCode o < codeError := by
  unfold outcomeCode
  split <;> decide

theorem settles_report {x : Except Failure Outcome} (s : Session)
    (hx : (∃ o, x = .ok o) ∨ ∃ fe, x = .error (.file fe)) : a.Settles tree (report s x).2 := by
  rcases hx with ⟨o, rfl⟩ | ⟨fe, rfl⟩
  · exact .inl ⟨_, outcomeCode_lt o, rfl⟩
  · exact settles_expected rfl

/-- Faithful hosts serve fit solvers. -/
theorem Host.Faithful.served (hh : h.Faithful) (recorded : Bool) :
    Solver.Served h.Prompt (h.solve recorded) := by
  refine fun s hs => ⟨fun x hx => ?_, fun ⟨ha, hb⟩ => ha.solve recorded s hs hb⟩
  obtain ⟨clock, rounds, hw⟩ := hh recorded s x hx
  exact Solver.answer_ok hs.method hs.seeded hs.numeric hs.notable hw

theorem comes_clock (h : Host Option) : Comes h.Prompt h.clock fun _ => True :=
  ⟨fun _ _ => trivial, fun ha => ha.clock⟩

/-- What keeps events from being recorded is logged. -/
theorem Arguments.Reads.journalFor_error (hr : a.Reads c) (hp : parse args = .ok a)
    (he : journalFor c path tree = .error e) : e.isExpected = true := by
  obtain ⟨s, hs, hformat⟩ := hr.get_choice hp (by decide) (rfl : formFor "events.format" = _)
    ⟨"json", by decide, rfl⟩ (by decide) (.text "json")
  have hcheck : Config.checkEventFormat (.text s) = .ok (.text s) ∧
      ∃ f, Events.Format.ofValue? (.text s) = some f := by
    simp only [Config.eventFormats, List.mem_cons, List.not_mem_nil, or_false] at hs
    rcases hs with rfl | rfl
    · exact ⟨rfl, _, rfl⟩
    · exact ⟨rfl, _, rfl⟩
  obtain ⟨hcheck, f, hf⟩ := hcheck
  unfold journalFor at he
  simp only [hformat, hcheck, Solver.mapError_ok, bind, Except.bind, hf] at he
  split at he
  · cases he
  · cases hcreate : Events.Journal.create tree (c.get "events.dir" .null).display
        (FileTree.stem (FileTree.baseName path)) f true with
    | ok y =>
      rw [hcreate] at he
      cases he
    | error fe =>
      rw [hcreate] at he
      cases he
      rfl

theorem Arguments.Reads.journalFor_unrecorded (hr : a.Reads c) (hu : a.Unrecorded) :
    journalFor c path tree = .ok (none, tree) := by
  have hfalse : (c.get "events.dir" .null).isTrue = false := by
    rw [hr _ (by decide)]
    exact hu
  unfold journalFor
  simp only [hfalse, Bool.not_false, if_true]

/-- **A file that is to be solved.** -/
theorem comes_solveFile (hh : h.Faithful) (hr : a.Reads c) (hp : parse args = .ok a)
    (hc : a.command = .solve path) (s : Session) :
    Comes (h.Prompt ∧ a.Capped) (solveFile h c path s) fun x => a.Settles s.tree x.2 := by
  have hclock : Comes (h.Prompt ∧ a.Capped) h.clock fun _ => True := (comes_clock h).imp And.left
  unfold solveFile
  cases hl : Dimacs.load s.tree path with
  | error e => exact .pure (settles_expected (Dimacs.refusal_of_load hl).isExpected)
  | ok f =>
    simp only
    cases hj : journalFor c path (s.log [Dimacs.loaded path f]).tree with
    | error e => exact .pure (settles_expected (hr.journalFor_error hp hj))
    | ok y =>
      obtain ⟨journal, tree'⟩ := y
      simp only
      rcases hr.create_cases hp f with ⟨hneg, hcreate⟩ | ⟨-, solver, hcreate, hfit, hb⟩
      · rw [hcreate]
        have hseed : a.Escapes s.tree (.random .negativeSeed) := .seed hc hl hneg
        cases journal with
        | none => exact .pure (settles_escape hseed)
        | some j =>
          refine hclock.bind fun clock _ => .pure ?_
          rcases abandon_cases (α := Nat) clock j 0 0 (.random .negativeSeed)
            { s.log [Dimacs.loaded path f] with tree := tree' } with he | ⟨fe, he⟩
          · rw [he]
            exact settles_escape hseed
          · rw [he]
            exact settles_expected rfl
      · rw [hcreate]
        have hserved := (hh.served journal.isSome solver hfit).imp (And.imp_right hb)
        refine hserved.bind fun x hx => hclock.bind fun clock _ => .pure (settles_report _ ?_)
        obtain ⟨solver', y⟩ := x
        obtain ⟨o, rfl⟩ := hx
        rcases account_cases clock solver' journal o _ with ho | hfe
        · exact .inl ⟨o, ho⟩
        · exact .inr hfe

/-- Without a directory for events a negative seed escapes. -/
theorem Arguments.Reads.solveFile_negative (hr : a.Reads c) (hp : parse args = .ok a)
    (hl : Dimacs.load s.tree path = .ok f) (hs : a.integer "solver.seed" < 0) (hu : a.Unrecorded) :
    solveFile h c path s = some (s.log [Dimacs.loaded path f], .error (.random .negativeSeed)) := by
  have hcreate : Solver.create .standard c f .null [] 0 = .error (.random .negativeSeed) := by
    rcases hr.create_cases hp f with ⟨-, hcreate⟩ | ⟨hn, -⟩
    · exact hcreate
    · omega
  unfold solveFile
  simp only [hl, hr.journalFor_unrecorded hu, hcreate]
  rfl

end

/-! ## Comparing the algorithms -/

/-- The benchmark on the formulas. -/
def Arguments.plan (a : Arguments) (c : Config) (fs : List Formula) : Benchmark.Plan where
  formulas := fs
  algorithms := Benchmark.standardAlgorithms
  seeds := (List.range (a.integer "benchmark.seeds").toNat).map fun (i : Nat) => .int i
  maxIterations := .int (a.integer "benchmark.max_iterations")
  timeout := c.get "solver.timeout" .null

section
variable {args : List String} {a : Arguments} {c : Config} {path key : String} {h : Host Option}
  {tree : FileTree} {e : Failure} {s : Session}

theorem Arguments.Reads.integerSetting (hr : a.Reads c) (hp : parse args = .ok a) (hk : key ∈ Config.keys)
    (hform : formFor key = some .integer) (hi : ∃ n, Config.initial key = .int n) (fallback : Value) :
    integerSetting c key fallback = .ok (a.integer key) := by
  rw [Cli.integerSetting, hr.get_integer hp hk hform hi]
  rfl

/-- The benchmark has no option for a seed. -/
theorem seed_eq_zero (hp : parse args = .ok a) (hc : a.command = .benchmark) :
    a.integer "solver.seed" = 0 := by
  have hforeign : ∀ f ∈ a.command.flags, f.target ≠ .setting "solver.seed" := by
    rw [hc]
    decide
  rw [Arguments.integer, value_initial hp hforeign]
  rfl

/-- What the benchmark comes to before it starts. -/
theorem Arguments.Reads.planOf_eq (hr : a.Reads c) (hp : parse args = .ok a) : planOf c =
    match a.clauseCount with
    | .error e => .error (.conversion e)
    | .ok m =>
      match RandomKSat.batch (a.integer "benchmark.num_variables") m (a.integer "benchmark.clause_size")
          (a.integer "benchmark.instances") (.int (a.integer "solver.seed")) with
      | .error e => .error (.ofRandomKSat e)
      | .ok fs => .ok (a.plan c fs) := by
  have hn := hr.integerSetting hp (by decide) (rfl : formFor "benchmark.num_variables" = _) ⟨20, rfl⟩ .null
  have hk := hr.integerSetting hp (by decide) (rfl : formFor "benchmark.clause_size" = _) ⟨3, rfl⟩ .null
  have hi := hr.integerSetting hp (by decide) (rfl : formFor "benchmark.instances" = _) ⟨5, rfl⟩ .null
  have hs := hr.integerSetting hp (by decide) (rfl : formFor "solver.seed" = _) ⟨0, rfl⟩ (.int 0)
  have hj := hr.integerSetting hp (by decide) (rfl : formFor "benchmark.seeds" = _) ⟨3, rfl⟩ .null
  have hm := hr.get_integer hp (by decide) (rfl : formFor "benchmark.max_iterations" = _) ⟨10000, rfl⟩ .null
  unfold planOf Arguments.clauseCount
  simp only [hn, hk, hi, hs, hj, hm, hr.get_ratio hp, Value.toReal, Solver.mapError_ok, bind, Except.bind]
  cases Value.realOfInteger (a.integer "benchmark.num_variables") with
  | error e => rfl
  | ok size =>
    simp only [Solver.mapError_ok]
    cases Value.roundReal (size * a.real "benchmark.clause_ratio") with
    | error e => rfl
    | ok m =>
      simp only [Solver.mapError_ok]
      cases RandomKSat.batch (a.integer "benchmark.num_variables") m (a.integer "benchmark.clause_size")
          (a.integer "benchmark.instances") (.int (a.integer "solver.seed")) with
      | error e => rfl
      | ok fs => rfl

/-- The comment of an instance can be made. -/
theorem named (hp : parse args = .ok a) {m s : Int} (hm : a.clauseCount = .ok m) (hs : Text.Printable s) :
    RandomKSat.Named (a.integer "benchmark.num_variables") m (a.integer "benchmark.clause_size")
      (.int s) := by
  have hround : Text.Printable m := by
    unfold Arguments.clauseCount at hm
    split at hm
    · cases hm
    · exact Value.printable_of_roundReal hm
  exact ⟨⟨printable_integer hp (by decide), hround, printable_integer hp (by decide)⟩,
    Value.printable_int.2 hs⟩

/-- **Numbers that no instance has** keep the benchmark from starting. -/
theorem Arguments.Reads.planOf_of_misfit (hr : a.Reads c) (hp : parse args = .ok a)
    (hc : a.command = .benchmark) (h : a.Misfit e) : planOf c = .error e := by
  have hs : 0 ≤ a.integer "solver.seed" := by rw [seed_eq_zero hp hc]
  have hprint : Text.Printable (a.integer "solver.seed") := printable_integer hp (by decide)
  rw [hr.planOf_eq hp]
  cases h with
  | count h => simp only [h]
  | refused h hi hn => simp only [h, RandomKSat.batch_of_refused hs hi (named hp h hprint) hn]

/-- What else keeps it from starting is logged. -/
theorem Arguments.Reads.planOf_cases (hr : a.Reads c) (hp : parse args = .ok a)
    (hc : a.command = .benchmark) :
    (∃ e, planOf c = .error e ∧ (e.isExpected = true ∨ a.Misfit e)) ∨
      ∃ fs, planOf c = .ok (a.plan c fs) := by
  have hs : a.integer "solver.seed" = 0 := seed_eq_zero hp hc
  -- the seeds are counted up to the number of instances
  have hprint : ∀ i < (a.integer "benchmark.instances").toNat,
      Text.Printable (a.integer "solver.seed" + (i : Nat)) := by
    intro i hi
    have hcount : Text.Printable (a.integer "benchmark.instances") := printable_integer hp (by decide)
    exact hcount.of_natAbs_le (by omega)
  rw [hr.planOf_eq hp]
  cases hm : a.clauseCount with
  | error e => exact .inl ⟨_, rfl, .inr (.count hm)⟩
  | ok m =>
    simp only
    cases hb : RandomKSat.batch (a.integer "benchmark.num_variables") m
        (a.integer "benchmark.clause_size") (a.integer "benchmark.instances")
        (.int (a.integer "solver.seed")) with
    | ok fs => exact .inr ⟨fs, rfl⟩
    | error e =>
      rcases RandomKSat.refused_of_batch (by omega) (fun i hi => named hp hm (hprint i hi)) hb with
        ⟨hi, hn⟩ | rfl
      · exact .inl ⟨_, rfl, .inr (.refused hm hi hn)⟩
      · exact .inl ⟨_, rfl, .inl rfl⟩

/-- The seeds of the benchmark are counted up to their number. -/
theorem printable_seeds (hp : parse args = .ok a) (c : Config) (fs : List Formula) :
    ∀ v ∈ (a.plan c fs).seeds, v.printable = true := by
  intro v hv
  obtain ⟨i, hi, rfl⟩ := List.mem_map.1 hv
  have hcount : Text.Printable (a.integer "benchmark.seeds") := printable_integer hp (by decide)
  have hlt := List.mem_range.1 hi
  exact Value.printable_int.2 (hcount.of_natAbs_le (by omega))

/-- The time of a trial is limited as the configuration says. -/
theorem option_timeout (c : Config) (fs : List Formula) (t : Benchmark.Trial) :
    Settings.option c ((a.plan c fs).options t) "timeout" .null = c.get "solver.timeout" .null := by
  have hlook : Value.lookup? "timeout" ((a.plan c fs).options t) = some (c.get "solver.timeout" .null) := rfl
  unfold Settings.option
  rw [hlook]
  cases hv : c.get "solver.timeout" .null with
  | null => exact hv
  | _ => rfl

/-- Every trial of the benchmark is ready. -/
theorem Arguments.Reads.ready (hr : a.Reads c) (hp : parse args = .ok a) (fs : List Formula) :
    ∀ t ∈ (a.plan c fs).trials, t.Ready .standard c (a.plan c fs) := by
  intro t ht
  obtain ⟨halg, hseed⟩ := Benchmark.mem_trials ht
  obtain ⟨i, -, hi⟩ := List.mem_map.1 hseed
  have hname : t.algorithm ∈ Registry.standard.names := by
    refine mem_names.2 ?_
    simpa [Arguments.plan, Benchmark.standardAlgorithms] using halg
  have hknown : ∀ x ∈ (a.plan c fs).options t, x.1 ∈ Settings.optionNames := by
    simp [Benchmark.Plan.options, Settings.optionNames]
  have hsettings := ofOptions_eq hknown (hr.startOption hp rfl)
  have hn : Settings.option c ((a.plan c fs).options t) "seed" (.int 0) = .int i := by
    simp [Settings.option, Benchmark.Plan.options, Value.lookup?, ← hi]
  have hcap : Settings.option c ((a.plan c fs).options t) "max_iterations" .null =
      .int (a.integer "benchmark.max_iterations") := rfl
  have htime := option_timeout (a := a) c fs t
  have hlimits : (Settings.option c ((a.plan c fs).options t) "max_iterations" .null).printable = true ∧
      (Settings.option c ((a.plan c fs).options t) "timeout" .null).printable = true := by
    rw [hcap, htime]
    exact ⟨Value.printable_int.2 (printable_integer hp (by decide)), hr.printable hp (by decide) rfl⟩
  constructor
  case solver =>
    intro readings
    rcases create_fit hname (.inl rfl) hsettings hn (.inr ⟨_, hcap⟩)
      (by rw [htime]; exact hr.get_timeout hp) hlimits t.formula readings with
      ⟨hneg, -⟩ | ⟨-, solver, hs, hfit, hb⟩
    · omega
    · exact ⟨solver, hs, hfit, hb (.inr ⟨_, hcap⟩)⟩
  case printable => exact printable_seeds hp c fs _ hseed

/-- The table is written, or a file is in the way. -/
theorem saveTable_cases (path : String) (rows : List Benchmark.Row) (s : Session) :
    (saveTable path rows s).2 = .ok () ∨ ∃ fe, (saveTable path rows s).2 = .error (.file fe) := by
  unfold saveTable
  split
  · exact .inl rfl
  · simp only
    split
    · exact .inr ⟨_, rfl⟩
    · split
      · exact .inr ⟨_, rfl⟩
      · exact .inl rfl

/-- **The algorithms that are to be compared.** -/
theorem comes_compare (hh : h.Faithful) (hr : a.Reads c) (hp : parse args = .ok a)
    (hc : a.command = .benchmark) (path : String) (s : Session) :
    Comes h.Prompt (compare h c path s) fun x => a.Settles s.tree x.2 := by
  unfold compare
  rcases hr.planOf_cases hp hc with ⟨e, he, hcase⟩ | ⟨fs, hplan⟩
  · rw [he]
    exact .pure (.inr ⟨e, rfl, hcase.imp_right (.numbers hc)⟩)
  · rw [hplan]
    refine (Benchmark.comes_run (hh.served false) (hr.ready hp fs)).bind fun x hx => ?_
    obtain ⟨records, y⟩ := x
    obtain ⟨rows, rfl⟩ := hx
    simp only
    rcases saveTable_cases path rows (s.log records) with hok | ⟨fe, herr⟩
    · obtain ⟨s', hs'⟩ : ∃ s', saveTable path rows (s.log records) = (s', .ok ()) := ⟨_, Prod.ext rfl hok⟩
      rw [hs']
      exact .pure (.inl ⟨codeSolved, by decide, rfl⟩)
    · obtain ⟨s', hs'⟩ : ∃ s', saveTable path rows (s.log records) = (s', .error (.file fe)) :=
        ⟨_, Prod.ext rfl herr⟩
      rw [hs']
      exact .pure (settles_expected rfl)

end

/-! ## The program -/

/-- How the program ends. -/
structure Ends (a : Arguments) (tree : FileTree) (res : Result) : Prop where
  ending : (∃ n ≤ codeError, res.ending = .code n) ∨ ∃ e, res.ending = .failed e ∧ a.Escapes tree e
  /-- An unknown level is an error. -/
  level : Log.levelOf? a.level = none → res.ending = .code codeError
  /-- A file without a formula is an error. -/
  refused : ∀ path e, a.command = .solve path → Dimacs.load tree path = .error e →
    res.ending = .code codeError
  /-- No failure that escapes is held up by anything else, if no events are to be recorded. -/
  escaped : Log.levelOf? a.level ≠ none → a.Unrecorded → ∀ e, a.Escapes tree e →
    res.ending = .failed e

section
variable {args : List String} {a : Arguments} {c : Config} {path : String} {h : Host Option}
  {tree : FileTree} {e : Failure} {s : Session} {r : Except Failure Nat}

theorem conclude_error (s : Session) (h : e.isExpected = false) :
    (conclude s (.error e)).ending = .failed e := by
  simp [conclude, h]

theorem ending_of_settles (h : a.Settles tree r) (s : Session) :
    (∃ n ≤ codeError, (conclude s r).ending = .code n) ∨
      ∃ e, (conclude s r).ending = .failed e ∧ a.Escapes tree e := by
  rcases h with ⟨n, hn, rfl⟩ | ⟨e, rfl, he | he⟩
  · exact .inl ⟨n, Nat.le_of_lt hn, rfl⟩
  · exact .inl ⟨codeError, Nat.le_refl _, conclude_of_isExpected he⟩
  · exact .inr ⟨e, conclude_error s he.isExpected, he⟩

/-- An unknown level ends the program before anything else is done. -/
theorem ends_of_unknown (hl : Log.levelOf? a.level = none)
    (hr : (conclude s (.error e)).ending = .code codeError) : Ends a tree (conclude s (.error e)) where
  ending := .inl ⟨codeError, Nat.le_refl _, hr⟩
  level _ := hr
  refused _ _ _ _ := hr
  escaped hn := absurd hl hn

/-- The end after solving a file. -/
theorem ends_solveFile (hh : h.Faithful) (hr : a.Reads c) (hp : parse args = .ok a)
    (hc : a.command = .solve path) (hl : Log.levelOf? a.level ≠ none) (s : Session) :
    Comes (h.Prompt ∧ a.Capped) (solveFile h c path s) fun x => Ends a s.tree (conclude x.1 x.2) := by
  have hcomes := comes_solveFile hh hr hp hc s
  refine ⟨fun x hx => ?_, hcomes.2⟩
  refine ⟨ending_of_settles (hcomes.1 x hx) _, fun hn => absurd hn hl, fun path' e hc' he => ?_,
    fun _ hu e he => ?_⟩
  · obtain rfl : path = path' := Command.solve.inj (hc.symm.trans hc')
    rw [solveFile_error he] at hx
    cases hx
    exact conclude_of_isExpected (Dimacs.refusal_of_load he).isExpected
  · cases he with
    | numbers hc' => cases hc.symm.trans hc'
    | seed hc' hload hs =>
      obtain rfl := Command.solve.inj (hc.symm.trans hc')
      rw [hr.solveFile_negative hp hload hs hu] at hx
      cases hx
      exact conclude_error _ rfl

/-- The end after a comparison. -/
theorem ends_compare (hh : h.Faithful) (hr : a.Reads c) (hp : parse args = .ok a)
    (hc : a.command = .benchmark) (hl : Log.levelOf? a.level ≠ none) (path : String) (s : Session) :
    Comes h.Prompt (compare h c path s) fun x => Ends a s.tree (conclude x.1 x.2) := by
  have hcomes := comes_compare hh hr hp hc path s
  refine ⟨fun x hx => ?_, hcomes.2⟩
  refine ⟨ending_of_settles (hcomes.1 x hx) _, fun hn => absurd hn hl, fun path' e hc' => ?_,
    fun _ _ e he => ?_⟩
  · cases hc.symm.trans hc'
  · have hexpected := he.isExpected
    cases he with
    | seed hc' => cases hc.symm.trans hc'
    | numbers hc' hm =>
      have hplan := hr.planOf_of_misfit hp hc hm
      simp only [compare, hplan] at hx
      cases hx
      exact conclude_error _ hexpected

/-- The end of the program by any faithful host. -/
theorem comes_run (hp : parse args = .ok a) (hc : a.command ≠ .none) (ha : a.Literal) (tree : FileTree)
    (hh : h.Faithful) :
    Comes (h.Prompt ∧ (a.command = .benchmark ∨ a.Capped)) (run h tree args) (Ends a tree) := by
  obtain ⟨c, hcfg, hr⟩ := configure_reads hp ha tree
  obtain ⟨sink, hsink⟩ := hr.setUp hp .initial tree
  have hperform : Comes (h.Prompt ∧ (a.command = .benchmark ∨ a.Capped)) (perform h a ⟨tree, .initial, ""⟩)
      fun x => Ends a tree (conclude x.1 x.2) := by
    unfold perform
    simp only [hcfg, hsink]
    cases hl : Log.levelOf? a.level with
    | none => exact .pure (ends_of_unknown hl (conclude_of_isExpected rfl))
    | some n =>
      have hne : Log.levelOf? a.level ≠ none := by simp [hl]
      cases hcmd : a.command with
      | none => exact absurd hcmd hc
      | solve path =>
        refine (ends_solveFile hh hr hp hcmd hne ⟨tree, sink, ""⟩).imp (And.imp_right fun ht => ?_)
        rcases ht with ht | ht
        · cases ht
        · exact ht
      | benchmark => exact (ends_compare hh hr hp hcmd hne _ ⟨tree, sink, ""⟩).imp And.left
  unfold run
  simp only [hp, if_neg hc]
  exact hperform.bind fun x hx => .pure hx

/-- **How the program ends** under literal arguments: with a code, or with one of the failures that escape.
It does end if it compares the algorithms, or if the search is greedy or has a cap.

Two things are taken for granted. Memory is unbounded: a file whose problem line declares more variables
than an array can hold gets its assignment here, while the program escapes with an overflow or for want of
memory. And the path of the table is that of a plain file: the program also writes compressed tables, told
by the ending of the path, and to places that a scheme names. -/
theorem run_ends (hp : parse args = .ok a) (hc : a.command ≠ .none) (ha : a.Literal) (tree : FileTree) :
    (∀ h : Host Option, h.Faithful → ∀ res, run h tree args = some res → Ends a tree res) ∧
      (a.command = .benchmark ∨ a.Capped → ∀ clock, ∃ res, run? clock tree args = some res) := by
  refine ⟨fun h hh => (comes_run hp hc ha tree hh).1, fun ht clock => ?_⟩
  exact (comes_run hp hc ha tree (Host.faithful_ofClock clock)).2 ⟨Host.prompt_ofClock clock, ht⟩

end

/-- A negative seed as an option. -/
def negativeChoice : Choice where
  flag := seedChoice.flag
  text := "-1"
  value := .int (-1)
  known := seedChoice.known
  read := rfl

/-- The arguments with this option. -/
def negativeSeed : Arguments := ⟨.solve "f.cnf", [negativeChoice.gives]⟩

theorem parse_negativeSeed : parse ["solve", "f.cnf", "--seed=-1"] = .ok negativeSeed :=
  parse_choices (by decide +kernel) [negativeChoice]

theorem literal_negativeSeed : negativeSeed.Literal :=
  ⟨rfl, fun _ _ h => by cases List.mem_singleton.1 h⟩

/-- The seed does not matter for a file that is not there. -/
theorem run_ends_missing : ∃ res,
    run? Surroundings.still.clock .empty ["solve", "f.cnf", "--seed=-1"] = some res ∧
      res.ending = .code codeError := by
  obtain ⟨hends, hends'⟩ := run_ends parse_negativeSeed (by decide) literal_negativeSeed .empty
  obtain ⟨res, hres⟩ := hends' (.inr (.inl rfl)) Surroundings.still.clock
  exact ⟨res, hres, (hends _ (Host.faithful_ofClock _) res hres).refused "f.cnf" _ rfl rfl⟩

/-- The file holds a formula, and nobody expects the failure to make a generator. -/
theorem negative_seed_escapes : parse ["solve", "f.cnf", "--seed=-1"] = .ok negativeSeed ∧
    negativeSeed.Literal ∧ ∃ res,
      run? Surroundings.still.clock unitTree ["solve", "f.cnf", "--seed=-1"] = some res ∧
        res.ending = .failed (.random .negativeSeed) := by
  have hl : Dimacs.load unitTree "f.cnf" =
      .ok ⟨1, [⟨[⟨0, true⟩], by simp⟩], [], by decide⟩ := by rfl
  have hends := comes_run parse_negativeSeed (by decide) literal_negativeSeed unitTree
    (Host.faithful_ofClock Surroundings.still.clock)
  obtain ⟨res, hres⟩ := hends.2 ⟨Host.prompt_ofClock _, .inr (.inl rfl)⟩
  have hescapes : negativeSeed.Escapes unitTree (.random .negativeSeed) := .seed rfl hl (by decide)
  exact ⟨parse_negativeSeed, literal_negativeSeed, res, hres,
    (hends.1 res hres).escaped (by decide) rfl _ hescapes⟩

end LocalSat.Cli
