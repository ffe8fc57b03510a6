import LocalSat.Proofs.Cli.Configured
import LocalSat.Proofs.Dimacs.Refusal
import LocalSat.Proofs.Greedy.Completeness
import LocalSat.Proofs.Safety

/-!
# Solving a file from the command line

Under plain arguments the program ends in one of two ways: there is no formula in the file, and that is
logged, or the solver that the arguments ask for comes to an outcome, and that is printed (`run_cases`).
No run fails in between, since the settings that arguments can give are a natural number and limits that
are numbers of few digits. Main statement: code and output tell each other, a model that is printed is one of the
formula in the file, and the greedy search without limits decides satisfiability (`run_solve`).
-/

namespace LocalSat.Cli

open LocalSat.Search

/-! ## Hosts -/

/-- What the host answers about a solver is what the solver comes to, by some clock and within some
number of rounds. -/
def Host.Faithful (h : Host Option) : Prop :=
  ∀ recorded s x, h.solve recorded s = some x →
    ∃ clock rounds, s.solveWithin ⟨clock, recorded⟩ rounds = some x

theorem Host.faithful_ofClock (clock : Nat → Float) : (Host.ofClock clock).Faithful :=
  fun _ _ _ h => ⟨clock, _, h⟩

/-! ## What is printed -/

/-- The text starts with the lines. -/
def Opens (ls : List String) (text : String) : Prop := ∃ rest, text = unlines ls ++ rest

section
variable {ls ks : List String} {text : String}

theorem opens_unlines (ls ks : List String) : Opens ls (unlines (ls ++ ks)) :=
  ⟨unlines ks, by simp [unlines, String.join_append]⟩

theorem Opens.left (h : Opens (ls ++ ks) text) : Opens ls text := by
  obtain ⟨rest, rfl⟩ := h
  exact ⟨unlines ks ++ rest, by simp [unlines, String.join_append, String.append_assoc]⟩

theorem not_opens_empty {l : String} : ¬ Opens (l :: ls) "" := by
  rintro ⟨rest, h⟩
  have hl := congrArg (fun s => s.toList.length) h
  simp [unlines, String.join_cons] at hl

/-- The two verdicts differ in their first letter. -/
theorem Opens.exclusive (h : Opens ["SATISFIABLE"] text) : ¬ Opens ["NO SOLUTION FOUND"] text := by
  obtain ⟨rest, rfl⟩ := h
  rintro ⟨rest', h'⟩
  have hl := congrArg (fun s => s.toList.head?) h'
  simp [unlines, String.join_cons] at hl

end

/-- The signed integers give each variable a value, in order, and make every clause true. -/
structure Models (ns : List Int) (f : Formula) : Prop where
  length : ns.length = f.numVariables
  signs : ∀ i < f.numVariables, ns[i]? = some ((i : Int) + 1) ∨ ns[i]? = some (-((i : Int) + 1))
  clauses : ∀ c ∈ f.clauses, ∃ l ∈ c.literals, l.toSigned ∈ ns

/-- The lines that a model is printed on. -/
def modelLines (ns : List Int) : List String :=
  ["SATISFIABLE", "v " ++ String.intercalate " " (ns.map toString) ++ " 0"]

theorem models_literalsOf {f : Formula} {bs : List Bool} (hl : bs.length = f.numVariables)
    (hf : f.Holds (truths bs)) : Models (literalsOf bs) f := by
  refine ⟨by simp [literalsOf, hl], fun i hi => ?_, fun c hc => ?_⟩
  · have hb : i < bs.length := by omega
    have hget : (literalsOf bs)[i]? =
        some (if bs[i] then ((1 + i : Nat) : Int) else -((1 + i : Nat) : Int)) := by
      simp [literalsOf, hb]
    rw [hget]
    cases bs[i] with
    | true => exact Or.inl (by simp; omega)
    | false => exact Or.inr (by simp; omega)
  · obtain ⟨l, hlc, hlt⟩ := hf c hc
    exact ⟨l, hlc, toSigned_mem_signed (f.inRange c hc l hlc).1 hlt⟩

/-- What is printed about an outcome agrees with its code, and shows a model of the formula. -/
structure Shown (f : Formula) (o : Outcome) : Prop where
  solved : o.status = .satisfiable → outcomeCode o = codeSolved ∧
    ∃ ns, Models ns f ∧ Opens (modelLines ns) (outcomeText o)
  notSolved : o.status ≠ .satisfiable → outcomeCode o = codeNotSolved ∧
    Opens ["NO SOLUTION FOUND"] (outcomeText o)

theorem shown_of_ended {t : Task} {s : State} {o : Outcome} (h : t.Ended s o) (hs : Scored t.formula s) :
    Shown t.formula o := by
  refine ⟨fun hsat => ⟨by simp [outcomeCode, hsat], ?_⟩, fun hsat => ⟨by simp [outcomeCode, hsat], ?_⟩⟩
  · have hmodel : o.model = some (completion s.assignment) := by rw [h.model, if_pos hsat]
    have hc := completes_completion s.assignment
    refine ⟨_, models_literalsOf (hc.1.trans hs.size)
      (((h.solves_iff hs).1 hsat).mono fun i b => hc.truths_eq), ?_⟩
    unfold outcomeText
    rw [hmodel]
    exact opens_unlines _ _
  · have hmodel : o.model = none := by rw [h.model, if_neg hsat]
    unfold outcomeText
    rw [hmodel]
    exact opens_unlines _ _

/-! ## Solvers that arguments ask for -/

section
variable {args : List String} {a : Arguments} {c : Config} {path : String} {f : Formula} {s s' : Solver}
  {w : Surroundings} {o : Outcome}

theorem Arguments.Asks.method_eq (h : a.Asks f s) : s.method = Greedy.method ∨ s.method = Walk.method :=
  h.method.imp And.right And.right

theorem Arguments.Asks.seeded (h : a.Asks f s) (hc : Configured a c) : s.Seeded := by
  unfold Solver.Seeded
  rw [h.settings]
  exact (hc.fits .seed).natural

theorem Arguments.Asks.numeric (h : a.Asks f s) (hc : Configured a c) : s.Numeric := by
  refine ⟨?_, ?_⟩
  · rw [h.settings]
    exact (hc.fits .maxIterations).number (Or.inl rfl)
  · rw [h.settings]
    exact (hc.fits .timeout).number (Or.inr rfl)

theorem Arguments.Asks.notable (h : a.Asks f s) (hc : Configured a c) : s.Notable := by
  refine ⟨?_, ?_⟩
  · rw [h.settings]
    exact (hc.fits .maxIterations).notable (Or.inl rfl)
  · rw [h.settings]
    exact (hc.fits .timeout).notable (Or.inr rfl)

theorem Arguments.Asks.shown (h : a.Asks f s) (hr : s.Returns w s' o) : Shown f o := by
  obtain ⟨q, rest, ht, -, -, he⟩ := hr.ended
  have hsc := ht.scored (Solver.regular_of_method h.method_eq) q List.mem_cons_self
  rw [← h.formula]
  exact shown_of_ended he hsc

/-- The arguments ask for the greedy search and for no limits. -/
structure Arguments.Unlimited (a : Arguments) : Prop where
  name : a.setting .name = .text Greedy.method.name
  maxIterations : a.setting .maxIterations = .null
  timeout : a.setting .timeout = .null

theorem Arguments.Asks.uncapped (h : a.Asks f s) (hu : a.Unlimited) :
    s.method = Greedy.method ∧ s.Uncapped := by
  refine ⟨?_, by rw [Solver.Uncapped, h.settings]; exact ⟨hu.maxIterations, hu.timeout⟩⟩
  rcases h.method with ⟨-, hm⟩ | ⟨hw, -⟩
  · exact hm
  · rw [hu.name] at hw
    exact absurd (Value.text.inj hw) (by decide)

/-! ## Runs of the program -/

theorem solveFile_error {h : Host Option} {s : Session} {e : Failure}
    (he : Dimacs.load s.tree path = .error e) : solveFile h c path s = some (s, .error e) := by
  unfold solveFile
  rw [he]
  rfl

/-- Solving the formula in a file is running one solver and printing what it comes to. -/
theorem solveFile_ok (hconf : Configured a c) {s : Session} (hf : Dimacs.load s.tree path = .ok f) :
    ∃ solver s₀, a.Asks f solver ∧ s₀.output = s.output ∧ ∀ h : Host Option, solveFile h c path s =
      (h.solve false solver).bind fun (solver, r) => h.clock.bind fun clock =>
        let (s, r) := account clock solver none r s₀
        some (report s r) := by
  obtain ⟨solver, hcreate, hasks⟩ := hconf.create_eq f
  refine ⟨solver, s.log [Dimacs.loaded path f], hasks, rfl, fun h => ?_⟩
  unfold solveFile
  simp only [hf, hconf.journalFor, hcreate]
  rfl

/-- The program does nothing but solve the file. -/
theorem run_eq (hp : parse args = .ok a) (hc : a.command = .solve path) (ha : a.Plain) (tree : FileTree) :
    ∃ c sink, Configured a c ∧ ∀ h : Host Option, run h tree args =
      (solveFile h c path ⟨tree, sink, ""⟩).bind fun (s, r) => some (conclude s r) := by
  obtain ⟨c, hcfg, hconf⟩ := configure_eq hp hc ha tree
  obtain ⟨sink, hsink⟩ := hconf.setUp .initial tree
  refine ⟨c, sink, hconf, fun h => ?_⟩
  have hperform : perform h a ⟨tree, .initial, ""⟩ = solveFile h c path ⟨tree, sink, ""⟩ := by
    unfold perform
    simp only [hcfg, hsink, hc]
  unfold run
  simp only [hp, hc, hperform, reduceCtorEq, if_false]
  rfl

theorem conclude_output (s : Session) (r : Except Failure Nat) : (conclude s r).output = s.output := by
  cases r with
  | ok n => rfl
  | error e =>
    unfold conclude
    by_cases he : e.isExpected = true
    · simp only [if_pos he]
      rfl
    · simp only [if_neg he]

/-- **How the program ends**: on a file without a formula, or with the outcome of the solver that is asked
for. -/
theorem run_cases {h : Host Option} (hh : h.Faithful) (hp : parse args = .ok a)
    (hc : a.command = .solve path) (ha : a.Plain) {tree : FileTree} {res : Result}
    (hr : run h tree args = some res) :
    (∃ e, Dimacs.load tree path = .error e ∧ res.ending = .code codeError ∧ res.output = "") ∨
    ∃ f s w s' o, Dimacs.load tree path = .ok f ∧ a.Asks f s ∧ s.Returns w s' o ∧
      res.ending = .code (outcomeCode o) ∧ res.output = outcomeText o := by
  obtain ⟨c, sink, hconf, hrun⟩ := run_eq hp hc ha tree
  rw [hrun h] at hr
  cases hload : Dimacs.load tree path with
  | error e =>
    rw [solveFile_error (s := ⟨tree, sink, ""⟩) hload] at hr
    cases hr
    exact Or.inl ⟨e, rfl, conclude_of_isExpected (Dimacs.refusal_of_load hload).isExpected,
      conclude_output _ _⟩
  | ok f =>
    obtain ⟨s, s₀, hasks, hout, hsolve⟩ := solveFile_ok hconf (s := ⟨tree, sink, ""⟩) hload
    rw [hsolve h] at hr
    obtain ⟨⟨s₁, r₁⟩, hfile, hend⟩ := Option.bind_eq_some_iff.1 hr
    obtain ⟨⟨s', x⟩, hx, hclock⟩ := Option.bind_eq_some_iff.1 hfile
    obtain ⟨_, -, hreport⟩ := Option.bind_eq_some_iff.1 hclock
    obtain ⟨clock, rounds, hw⟩ := hh _ _ _ hx
    obtain ⟨o, rfl⟩ := Solver.answer_ok hasks.method_eq (hasks.seeded hconf) (hasks.numeric hconf)
      (hasks.notable hconf) hw
    cases hreport
    cases hend
    refine Or.inr ⟨f, s, ⟨clock, false⟩, s', o, rfl, hasks, ⟨rounds, hw⟩, rfl, ?_⟩
    show s₀.output ++ outcomeText o = outcomeText o
    rw [hout, String.empty_append]

/-- Without limits the program ends, if the search is greedy. -/
theorem run?_isSome (hp : parse args = .ok a) (hc : a.command = .solve path) (ha : a.Plain)
    (hu : a.Unlimited) (tree : FileTree) (clock : Nat → Float) :
    ∃ res, run? clock tree args = some res := by
  obtain ⟨c, sink, hconf, hrun⟩ := run_eq hp hc ha tree
  unfold run?
  rw [hrun]
  cases hload : Dimacs.load tree path with
  | error e =>
    rw [solveFile_error (s := ⟨tree, sink, ""⟩) hload]
    exact ⟨_, rfl⟩
  | ok f =>
    obtain ⟨s, s₀, hasks, -, hsolve⟩ := solveFile_ok hconf (s := ⟨tree, sink, ""⟩) hload
    obtain ⟨hm, hcap⟩ := hasks.uncapped hu
    obtain ⟨s', o, ho⟩ := Greedy.solve?_isSome hm (hasks.seeded hconf) hcap ⟨clock, false⟩
    rw [hsolve, show (Host.ofClock clock).solve false s = some (s', .ok o) from ho]
    exact ⟨_, rfl⟩

end

/-! ## What code and output tell -/

/-- What the end of the program tells about the file at a path. -/
structure Tells (a : Arguments) (tree : FileTree) (path : String) (res : Result) : Prop where
  codes : res.ending = .code codeSolved ∨ res.ending = .code codeNotSolved ∨ res.ending = .code codeError
  refused_iff : (res.ending = .code codeError ∧ res.output = "") ↔
    ∃ e, Dimacs.load tree path = .error e
  refusal : ∀ e, Dimacs.load tree path = .error e → Dimacs.Refusal tree path e
  silent : res.ending = .code codeError → res.output = ""
  solved_iff : res.ending = .code codeSolved ↔ Opens ["SATISFIABLE"] res.output
  model : res.ending = .code codeSolved → ∃ f ns, Dimacs.load tree path = .ok f ∧ Models ns f ∧
    Opens (modelLines ns) res.output
  notSolved_iff : res.ending = .code codeNotSolved ↔ Opens ["NO SOLUTION FOUND"] res.output
  /-- The greedy search without limits decides. -/
  decided : a.Unlimited → ∀ f, Dimacs.load tree path = .ok f →
    (res.ending = .code codeSolved ↔ f.Satisfiable) ∧
      (res.ending = .code codeNotSolved ↔ ¬ f.Satisfiable)

section
variable {args : List String} {a : Arguments} {tree : FileTree} {path : String} {res : Result} {f : Formula}

theorem code_ne {n k : Nat} (h : res.ending = .code n) (hne : n ≠ k) : res.ending ≠ .code k := by
  intro hk
  rw [h] at hk
  exact hne (Ending.code.inj hk)

theorem not_refused (hl : Dimacs.load tree path = .ok f) : ¬ ∃ e, Dimacs.load tree path = .error e := by
  rintro ⟨e, he⟩
  rw [hl] at he
  cases he

/-- There is no formula in the file. -/
theorem tells_of_error {e : Failure} (hl : Dimacs.load tree path = .error e)
    (he : res.ending = .code codeError) (ho : res.output = "") : Tells a tree path res where
  codes := Or.inr (Or.inr he)
  refused_iff := ⟨fun _ => ⟨e, hl⟩, fun _ => ⟨he, ho⟩⟩
  refusal _ h := Dimacs.refusal_of_load h
  silent _ := ho
  solved_iff := by
    rw [ho]
    exact ⟨fun h => absurd h (code_ne he (by decide)), fun h => absurd h not_opens_empty⟩
  model h := absurd h (code_ne he (by decide))
  notSolved_iff := by
    rw [ho]
    exact ⟨fun h => absurd h (code_ne he (by decide)), fun h => absurd h not_opens_empty⟩
  decided _ f hf := absurd ⟨e, hl⟩ (not_refused hf)

/-- A model of the formula in the file is printed. -/
theorem tells_of_model {ns : List Int} (hl : Dimacs.load tree path = .ok f)
    (he : res.ending = .code codeSolved) (hm : Models ns f) (ho : Opens (modelLines ns) res.output)
    (hd : a.Unlimited → f.Satisfiable) : Tells a tree path res where
  codes := Or.inl he
  refused_iff := ⟨fun h => absurd h.1 (code_ne he (by decide)), fun h => absurd h (not_refused hl)⟩
  refusal e h := absurd ⟨e, h⟩ (not_refused hl)
  silent h := absurd h (code_ne he (by decide))
  solved_iff := ⟨fun _ => ho.left, fun _ => he⟩
  model _ := ⟨f, ns, hl, hm, ho⟩
  notSolved_iff :=
    ⟨fun h => absurd h (code_ne he (by decide)), fun h => absurd h ho.left.exclusive⟩
  decided hu f' hf' := by
    obtain rfl : f = f' := Except.ok.inj (hl.symm.trans hf')
    exact ⟨⟨fun _ => hd hu, fun _ => he⟩,
      ⟨fun h => absurd h (code_ne he (by decide)), fun h => absurd (hd hu) h⟩⟩

/-- No model of the formula in the file has been found. -/
theorem tells_of_none (hl : Dimacs.load tree path = .ok f) (he : res.ending = .code codeNotSolved)
    (ho : Opens ["NO SOLUTION FOUND"] res.output) (hd : a.Unlimited → ¬ f.Satisfiable) :
    Tells a tree path res where
  codes := Or.inr (Or.inl he)
  refused_iff := ⟨fun h => absurd h.1 (code_ne he (by decide)), fun h => absurd h (not_refused hl)⟩
  refusal e h := absurd ⟨e, h⟩ (not_refused hl)
  silent h := absurd h (code_ne he (by decide))
  solved_iff := ⟨fun h => absurd h (code_ne he (by decide)), fun h => absurd ho h.exclusive⟩
  model h := absurd h (code_ne he (by decide))
  notSolved_iff := ⟨fun _ => ho, fun _ => he⟩
  decided hu f' hf' := by
    obtain rfl : f = f' := Except.ok.inj (hl.symm.trans hf')
    exact ⟨⟨fun h => absurd h (code_ne he (by decide)), fun h => absurd h (hd hu)⟩,
      ⟨fun _ => hd hu, fun _ => he⟩⟩

/-- **What the program tells about a file** that it is to solve under plain arguments, whoever runs the
solver; the greedy search without limits tells it by every clock. -/
theorem run_solve (hp : parse args = .ok a) (hc : a.command = .solve path) (ha : a.Plain)
    (tree : FileTree) :
    (∀ h : Host Option, h.Faithful → ∀ res, run h tree args = some res → Tells a tree path res) ∧
      (a.Unlimited → ∀ clock, ∃ res, run? clock tree args = some res) := by
  refine ⟨fun h hh res hr => ?_, fun hu clock => run?_isSome hp hc ha hu tree clock⟩
  rcases run_cases hh hp hc ha hr with ⟨e, hl, he, ho⟩ | ⟨f, s, w, s', o, hl, hs, hret, he, ho⟩
  · exact tells_of_error hl he ho
  · have hdecided : a.Unlimited → (o.status = .satisfiable ↔ f.Satisfiable) := by
      intro hu
      obtain ⟨hm, hcap⟩ := hs.uncapped hu
      rw [← hs.formula]
      exact (Greedy.status_iff_of_uncapped hm hcap hret).1
    have hshown := hs.shown hret
    by_cases hsat : o.status = .satisfiable
    · obtain ⟨hcode, ns, hm, hopens⟩ := hshown.solved hsat
      rw [hcode] at he
      exact tells_of_model hl he hm (ho ▸ hopens) fun hu => (hdecided hu).1 hsat
    · obtain ⟨hcode, hopens⟩ := hshown.notSolved hsat
      rw [hcode] at he
      exact tells_of_none hl he (ho ▸ hopens) fun hu hf => hsat ((hdecided hu).2 hf)

end

/-- A tree with one file, which asks for the only variable to be false. -/
def unitTree : FileTree :=
  ⟨[(["f.cnf", "."], .file (Text.Utf8.encode "p cnf 1 1\n-1 0\n".toList))]⟩

/-- The seed as an option. -/
def seedChoice : Choice where
  flag := ⟨"--seed", .integer, .setting "solver.seed"⟩
  text := "3"
  value := .int 3
  known := by simp [solveGrammar]
  read := rfl

theorem run_solve_unit : ∃ res,
    run? Surroundings.still.clock unitTree ["solve", "f.cnf", "--seed=3"] = some res ∧
      res.ending = .code codeSolved ∧ Opens ["SATISFIABLE", "v -1 0"] res.output := by
  have hp : parse ["solve", "f.cnf", "--seed=3"] = .ok ⟨.solve "f.cnf", [seedChoice.gives]⟩ :=
    parse_choices (by decide +kernel) [seedChoice]
  have ha : Arguments.Plain ⟨.solve "f.cnf", [seedChoice.gives]⟩ := by
    refine ⟨fun x hx => ?_, fun x hx _ => ?_⟩
    · rw [List.mem_singleton.1 hx]
      exact ⟨.seed, rfl⟩
    · rw [List.mem_singleton.1 hx]
      exact ⟨3, rfl⟩
  have hu : Arguments.Unlimited ⟨.solve "f.cnf", [seedChoice.gives]⟩ := ⟨rfl, rfl, rfl⟩
  have hl : Dimacs.load unitTree "f.cnf" =
      .ok ⟨1, [⟨[⟨0, true⟩], by simp⟩], [], by decide⟩ := by rfl
  obtain ⟨htells, hends⟩ := run_solve hp rfl ha unitTree
  obtain ⟨res, hres⟩ := hends hu Surroundings.still.clock
  have ht := htells _ (Host.faithful_ofClock _) res hres
  have hcode := (ht.decided hu _ hl).1.2 ⟨[false], rfl, by decide⟩
  obtain ⟨f, ns, hf, hm, hopens⟩ := ht.model hcode
  rw [hl] at hf
  cases hf
  obtain ⟨n, rfl⟩ := List.length_eq_one_iff.1 hm.length
  obtain ⟨l, hlc, hln⟩ := hm.clauses _ List.mem_cons_self
  rw [List.mem_singleton] at hlc hln
  subst hlc hln
  exact ⟨res, hres, hcode, hopens⟩

end LocalSat.Cli
