import LocalSat.Cli
import LocalSat.Proofs.Cli.Arguments
import LocalSat.Proofs.Config
import LocalSat.Proofs.Returns

/-!
# The program under the solver's options

Arguments that are `Plain` give nothing but settings of the solver. Then the configuration is the default
one but for the last values that are given (`configure_eq`), logging is set up without a file, no events
are recorded, and there is a solver of the algorithm that is asked for (`create_eq`).
-/

namespace LocalSat.Cli

open LocalSat.Search

/-! ## Settings of a solver -/

/-- The settings of a solver. -/
inductive Knob where
  | name
  | seed
  | initialization
  | maxIterations
  | timeout
deriving DecidableEq, Repr

namespace Knob

/-- The entry of a setting in its section. -/
def entry : Knob → String
  | name => "name"
  | seed => "seed"
  | initialization => "initialization"
  | maxIterations => "max_iterations"
  | timeout => "timeout"

/-- The key of a setting. -/
def key (k : Knob) : String := "solver." ++ k.entry

/-- The value of a setting that nobody configured. -/
def fallback : Knob → Value
  | name => .text Greedy.method.name
  | seed => .int 0
  | initialization => .text "random"
  | maxIterations => .null
  | timeout => .null

theorem path_key (k : Knob) : Config.path k.key = ["solver", k.entry] := by
  cases k <;> decide

theorem isEmpty_key (k : Knob) : k.key.isEmpty = false := by
  cases k <;> decide

theorem entry_injective : Function.Injective entry := by
  intro k k' h
  cases k <;> cases k' <;> first | rfl | exact absurd h (by decide)

theorem eq_of_path {k k' : Knob} (h : Config.path k.key = Config.path k'.key) : k = k' := by
  rw [path_key, path_key] at h
  exact entry_injective (by simpa using h)

theorem entry?_defaults (k : Knob) : Config.defaults.entry? "solver" k.entry = some k.fallback := by
  cases k <;> rfl

end Knob

/-- The values that a setting can have. -/
inductive Fits : Knob → Value → Prop
  | greedy : Fits .name (.text Greedy.method.name)
  | walk : Fits .name (.text Walk.method.name)
  | seed (n : Nat) : Fits .seed (.int n)
  | random : Fits .initialization (.text "random")
  | unassigned : Fits .initialization (.text "unassigned")
  | uncapped : Fits .maxIterations .null
  | cap (n : Int) (h : Text.Printable n) : Fits .maxIterations (.int n)
  | untimed : Fits .timeout .null
  | timed (x : Float) : Fits .timeout (.real x)

theorem fits_fallback (k : Knob) : Fits k k.fallback := by
  cases k with
  | name => exact .greedy
  | seed => exact .seed 0
  | initialization => exact .random
  | maxIterations => exact .uncapped
  | timeout => exact .untimed

theorem Fits.plain {k : Knob} {v : Value} (h : Fits k v) : Config.Plain v := by
  cases h with
  | greedy | walk | random | unassigned => exact Config.plain_text (by decide)
  | seed n => exact Config.plain_int n
  | cap n => exact Config.plain_int n
  | timed x => exact Config.plain_real x
  | uncapped | untimed => exact Config.plain_null

/-- A setting that is read with its own default is read as it stands. -/
theorem Fits.unset {k : Knob} {v : Value} (h : Fits k v) :
    (if Config.isUnset v then k.fallback else v) = v := by
  cases h <;> rfl

theorem Fits.natural {v : Value} (h : Fits .seed v) : ∃ n : Nat, v = .int n := by
  cases h with
  | seed n => exact ⟨n, rfl⟩

theorem Fits.number {k : Knob} {v : Value} (h : Fits k v) (hk : k = .maxIterations ∨ k = .timeout) :
    v = .null ∨ ∃ n, v.number? = some n := by
  cases h with
  | uncapped | untimed => exact Or.inl rfl
  | cap n hn => exact Or.inr ⟨.int n, rfl⟩
  | timed x => exact Or.inr ⟨.real x, rfl⟩
  | greedy | walk | seed | random | unassigned => simp at hk

/-- A limit can be noted. -/
theorem Fits.notable {k : Knob} {v : Value} (h : Fits k v) (hk : k = .maxIterations ∨ k = .timeout) :
    (Settings.limit v).Printable := by
  cases h with
  | uncapped | untimed | timed => trivial
  | cap n hn => exact hn
  | greedy | walk | seed | random | unassigned => simp at hk

/-! ## Plain arguments -/

/-- The arguments give settings of the solver only, and no negative seed. -/
structure Arguments.Plain (a : Arguments) : Prop where
  knobs : ∀ x ∈ a.given, ∃ k : Knob, x.1 = .setting k.key
  seed : ∀ x ∈ a.given, x.1 = .setting Knob.seed.key → ∃ n : Nat, x.2 = .int n

/-- The last value that is given for a setting of the solver, or else its default. -/
def Arguments.setting (a : Arguments) (k : Knob) : Value :=
  (a.settings.reverse.lookup k.key).getD k.fallback

section
variable {args : List String} {a : Arguments} {path key : String} {v : Value} {k : Knob}

theorem mem_settings : (key, v) ∈ a.settings ↔ (.setting key, v) ∈ a.given := by
  simp only [Arguments.settings, List.mem_filterMap]
  constructor
  · rintro ⟨⟨t, w⟩, hx, he⟩
    cases t <;> simp at he
    obtain ⟨rfl, rfl⟩ := he
    exact hx
  · intro hx
    exact ⟨_, hx, rfl⟩

/-- What the forms of options read: no integer among it is too long to be printed. -/
theorem read_eq_ok {form : Form} {s : String} (h : form.read s = .ok v) : match form with
    | .text => v = .text s
    | .integer => ∃ n, v = .int n ∧ Text.Printable n
    | .real => ∃ x, v = .real x
    | .choice among => s ∈ among ∧ v = .text s := by
  cases form with
  | text =>
    cases h
    rfl
  | integer =>
    simp only [Form.read] at h
    cases hn : Text.readInteger? s with
    | none =>
      rw [hn] at h
      cases h
    | some n =>
      rw [hn] at h
      cases h
      exact ⟨n, rfl, Text.printable_of_integer? hn⟩
  | real =>
    simp only [Form.read] at h
    cases hx : Decimal.readReal? s with
    | none =>
      rw [hx] at h
      cases h
    | some x =>
      rw [hx] at h
      cases h
      exact ⟨x, rfl⟩
  | choice among =>
    simp only [Form.read] at h
    by_cases hs : among.contains s = true
    · rw [if_pos hs] at h
      cases h
      exact ⟨by simpa using hs, rfl⟩
    · rw [if_neg hs] at h
      cases h

theorem mem_names {s : String} :
    s ∈ Registry.standard.names ↔ s = Greedy.method.name ∨ s = Walk.method.name := by
  simp [Registry.names, Registry.standard]

/-- What is given for a setting of the solver fits. -/
theorem fits_of_given (hp : parse args = .ok a) (hc : a.command = .solve path) (ha : a.Plain)
    (h : (.setting k.key, v) ∈ a.given) : Fits k v := by
  have hseed := ha.seed _ h
  have hgives := parse_gives hp _ h
  rw [hc] at hgives
  rcases hgives with ⟨f, hf, s, ht, hr⟩ | ⟨f, hf, s, ht, hr⟩
  · -- the program's own options are none of the solver's
    simp only [programGrammar, List.mem_cons, List.not_mem_nil, or_false] at hf
    rcases hf with rfl | rfl
    · cases ht
    · exact absurd (Target.setting.inj ht) (by cases k <;> decide)
  · have hread := read_eq_ok hr
    simp only [Command.grammar, solveGrammar, List.mem_cons, List.not_mem_nil, or_false] at hf
    rcases hf with rfl | rfl | rfl | rfl | rfl | rfl | rfl <;> cases k <;>
      first
        | exact absurd (Target.setting.inj ht) (by decide)
        | skip
    · obtain ⟨hs, rfl⟩ := hread
      rcases mem_names.1 hs with rfl | rfl
      · exact .greedy
      · exact .walk
    · obtain ⟨n, rfl⟩ := hseed rfl
      exact .seed n
    · obtain ⟨n, rfl, hn⟩ := hread
      exact .cap n hn
    · obtain ⟨x, rfl⟩ := hread
      exact .timed x
    · obtain ⟨hs, rfl⟩ := hread
      simp only [Config.initializations, List.mem_cons, List.not_mem_nil, or_false] at hs
      rcases hs with rfl | rfl
      · exact .random
      · exact .unassigned

theorem fits_setting (hp : parse args = .ok a) (hc : a.command = .solve path) (ha : a.Plain) (k : Knob) :
    Fits k (a.setting k) := by
  unfold Arguments.setting
  cases hl : a.settings.reverse.lookup k.key with
  | none => exact fits_fallback k
  | some v => exact fits_of_given hp hc ha (mem_settings.1 (Config.mem_of_lookup hl))

end

/-! ## The configuration -/

/-- The configuration is the default one under the settings of the solver that the arguments give. -/
structure Configured (a : Arguments) (c : Config) : Prop where
  fits : ∀ k, Fits k (a.setting k)
  solver : ∀ k : Knob, c.entry? "solver" k.entry = some (a.setting k)
  others : ∀ s entry, s ≠ "solver" → c.entry? s entry = Config.defaults.entry? s entry

section
variable {args : List String} {a : Arguments} {c : Config} {path : String}

theorem textFor_configFile (ha : a.Plain) : a.textFor .configFile = "" := by
  have hnone : a.given.filter (·.1 = .configFile) = [] := by
    rw [List.filter_eq_nil_iff]
    intro x hx
    obtain ⟨k, hk⟩ := ha.knobs x hx
    simp [hk]
  unfold Arguments.textFor
  rw [hnone]
  rfl

/-- **The configuration** under plain arguments. -/
theorem configure_eq (hp : parse args = .ok a) (hc : a.command = .solve path) (ha : a.Plain)
    (tree : FileTree) : ∃ c, configure a tree = .ok c ∧ Configured a c := by
  have hknob : ∀ x ∈ a.settings, ∃ k : Knob, x.1 = k.key := by
    intro x hx
    obtain ⟨k, hk⟩ := ha.knobs _ (mem_settings.1 hx)
    exact ⟨k, Target.setting.inj hk⟩
  have hset : Config.defaults.Settable a.settings := by
    intro x hx
    obtain ⟨k, hk⟩ := hknob x hx
    have hfit : Fits k x.2 := fits_of_given hp hc ha (mem_settings.1 (hk ▸ hx))
    exact ⟨_, _, _, hk ▸ k.path_key, k.entry?_defaults, hfit.plain.single⟩
  refine ⟨Config.defaults.setAll a.settings, ?_, fits_setting hp hc ha, fun k => ?_, fun s entry hs => ?_⟩
  · rw [configure, textFor_configFile ha, Config.load_empty]
    rfl
  · rw [Config.entry?_setAll hset (fun x hx he => ?_) k.path_key, k.entry?_defaults, Arguments.setting]
    · cases a.settings.reverse.lookup k.key <;> rfl
    · obtain ⟨k', hk'⟩ := hknob x hx
      rw [hk'] at he ⊢
      rw [Knob.eq_of_path he]
  · refine Config.entry?_setAll_of_ne hset fun x hx he => ?_
    obtain ⟨k, hk⟩ := hknob x hx
    rw [hk, k.path_key] at he
    exact hs (List.cons.inj he).1.symm

theorem Configured.get_knob (h : Configured a c) (k : Knob) : c.get k.key k.fallback = a.setting k := by
  rw [Config.get_eq k.path_key k.isEmpty_key (h.solver k) (h.fits k).plain, (h.fits k).unset]

theorem Configured.get_other (h : Configured a c) {key : String} {v : Value} (s entry : String)
    (hk : Config.path key = [s, entry]) (hs : s ≠ "solver") (hne : key.isEmpty = false)
    (hv : Config.defaults.entry? s entry = some v) (hp : Config.Plain v) (fallback : Value) :
    c.get key fallback = if Config.isUnset v then fallback else v :=
  Config.get_eq hk hne ((h.others s entry hs).trans hv) hp fallback

/-! ## Logging, events and the solver -/

/-- Logging is set up without a file, if the level is known. -/
theorem setUp_eq {level : Value} {n : Int} (hn : Log.levelNumber level = .ok n) (sink : Log.Sink)
    (tree : FileTree) : ∃ sink',
      Log.setUp sink tree level (.text Log.defaultFormat) .null = (sink', tree, .ok ()) := by
  have hfield : Log.hasField Log.defaultFormat = true := by decide
  have htrue : (Value.text Log.defaultFormat).isTrue = true := by decide
  have hshown : (Value.text Log.defaultFormat).display = Log.defaultFormat := rfl
  unfold Log.setUp
  rw [hn]
  simp only [htrue, if_true, hshown, hfield, Bool.not_true, Bool.false_eq_true, if_false]
  exact ⟨_, rfl⟩

/-- Logging is set up under plain arguments. -/
theorem Configured.setUp (h : Configured a c) (sink : Log.Sink) (tree : FileTree) :
    ∃ sink', Log.setUp sink tree (c.get "logging.level" (.text "INFO")) (c.get "logging.format" .null)
      (c.get "logging.file" .null) = (sink', tree, .ok ()) := by
  have hlevel : c.get "logging.level" (.text "INFO") = .text "INFO" :=
    h.get_other "logging" "level" (by decide) (by decide) (by decide) rfl
      (Config.plain_text (by decide)) _
  have hformat : c.get "logging.format" .null = .text Log.defaultFormat :=
    h.get_other "logging" "format" (by decide) (by decide) (by decide) rfl
      (Config.plain_text (by decide)) _
  have hfile : c.get "logging.file" .null = .null :=
    h.get_other "logging" "file" (by decide) (by decide) (by decide) rfl
      Config.plain_null _
  have hnumber : Log.levelNumber (.text "INFO") = .ok 20 := rfl
  rw [hlevel, hformat, hfile]
  exact setUp_eq hnumber sink tree

/-- No events are recorded. -/
theorem Configured.journalFor (h : Configured a c) (path : String) (tree : FileTree) :
    journalFor c path tree = .ok (none, tree) := by
  have hdir : c.get "events.dir" .null = .null :=
    h.get_other "events" "dir" (by decide) (by decide) (by decide) rfl
      Config.plain_null _
  unfold Cli.journalFor
  rw [hdir]
  rfl

/-- The settings of the solver that the arguments ask for. -/
def Arguments.solverSettings (a : Arguments) : Settings where
  seed := a.setting .seed
  initialization := a.setting .initialization
  maxIterations := a.setting .maxIterations
  timeout := a.setting .timeout

theorem Configured.ofOptions (h : Configured a c) : Settings.ofOptions c [] = .ok a.solverSettings := by
  have hstart : Settings.startOption c [] = a.setting .initialization := h.get_knob .initialization
  have hcheck : Config.checkInitialization (a.setting .initialization) =
      .ok (a.setting .initialization) := by
    have hfit := h.fits .initialization
    generalize a.setting .initialization = v at hfit ⊢
    cases hfit <;> rfl
  have hseed : Settings.option c [] "seed" (.int 0) = a.setting .seed := h.get_knob .seed
  have hcap : Settings.option c [] "max_iterations" .null = a.setting .maxIterations :=
    h.get_knob .maxIterations
  have htime : Settings.option c [] "timeout" .null = a.setting .timeout := h.get_knob .timeout
  unfold Settings.ofOptions
  rw [List.find?_nil]
  simp only [hstart, hcheck, hseed, hcap, htime]
  rfl

/-- The solver is one of the formula as the arguments ask for it. -/
structure Arguments.Asks (a : Arguments) (f : Formula) (s : Solver) : Prop where
  formula : s.formula = f
  settings : s.settings = a.solverSettings
  method : (a.setting .name = .text Greedy.method.name ∧ s.method = Greedy.method) ∨
    (a.setting .name = .text Walk.method.name ∧ s.method = Walk.method)

/-- **The solver** that the arguments ask for is created. -/
theorem Configured.create_eq (h : Configured a c) (f : Formula) :
    ∃ s, Solver.create .standard c f .null [] 0 = .ok s ∧ a.Asks f s := by
  have hname : c.get "solver.name" (.text Greedy.method.name) = a.setting .name := h.get_knob .name
  obtain ⟨n, hn⟩ := (h.fits .seed).natural
  obtain ⟨g, hg⟩ := Solver.generator_of_natural (v := a.solverSettings.seed) hn
  have hmake : ∀ m, Solver.make m f a.solverSettings 0 =
      .ok ⟨m, f, a.solverSettings, ⟨.initial f g, 0, []⟩⟩ := by
    intro m
    unfold Solver.make
    rw [hg]
  have hcreate : ∀ k m, Registry.standard.find c .null = .ok k → k.method? = some m →
      Solver.create .standard c f .null [] 0 = .ok ⟨m, f, a.solverSettings, ⟨.initial f g, 0, []⟩⟩ := by
    intro k m hk hm
    rw [Solver.create_eq hk hm h.ofOptions, hmake]
  have hfind : ∀ n k, a.setting .name = .text n → Registry.standard.lookUp? n = some k →
      Registry.standard.find c .null = .ok k := by
    intro n k hn hk
    unfold Registry.find
    simp only [hname, hn, hk]
  have hfit := h.fits .name
  generalize hv : a.setting .name = v at hfit
  cases hfit with
  | greedy => exact ⟨_, hcreate .greedy _ (hfind _ _ hv rfl) rfl, rfl, rfl, Or.inl ⟨hv, rfl⟩⟩
  | walk => exact ⟨_, hcreate .walk _ (hfind _ _ hv rfl) rfl, rfl, rfl, Or.inr ⟨hv, rfl⟩⟩

end

end LocalSat.Cli
