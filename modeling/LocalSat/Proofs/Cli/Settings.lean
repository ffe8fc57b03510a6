import LocalSat.Proofs.Cli.Configured

/-!
# Settings under arguments

Arguments are `Literal` if they name no file of settings and refer to nothing. Then every setting that has
a default is read as the last value given for it (`configure_reads`), and that value is the default or of
the form in which the option is read (`value_cases`), which `formFor` names.
-/

namespace LocalSat.Cli

open LocalSat.Search

/-- The arguments name no file of settings, and no text among the settings holds a reference. -/
structure Arguments.Literal (a : Arguments) : Prop where
  noFile : a.textFor .configFile = ""
  noReference : ∀ key s, (.setting key, .text s) ∈ a.given → ¬ Config.opening <:+: s.toList

/-- The value of a setting: the last one that is given, or else the default. -/
def Arguments.value (a : Arguments) (key : String) : Value := Config.settled a.settings key

/-- The configuration reads every setting as the arguments have it. -/
def Arguments.Reads (a : Arguments) (c : Config) : Prop :=
  ∀ key ∈ Config.keys, ∀ fallback, c.get key fallback = Config.reading fallback (a.value key)

/-- The options of the program and of a command. -/
def Command.flags (c : Command) : List Flag := programGrammar.flags ++ c.grammar.flags

/-- The options of the program and of all commands. -/
def flags : List Flag := programGrammar.flags ++ solveGrammar.flags ++ benchmarkGrammar.flags

/-- The form in which a setting is read. -/
def formFor (key : String) : Option Form :=
  (flags.find? fun f => f.target = .setting key).map Flag.form

section
variable {args : List String} {a : Arguments} {key : String} {form : Form} {v : Value} {f : Flag}

theorem mem_flags {c : Command} (h : f ∈ c.flags) : f ∈ flags := by
  unfold flags
  rcases List.mem_append.1 h with h | h
  · exact List.mem_append_left _ (List.mem_append_left _ h)
  · cases c with
    | none => exact List.mem_append_left _ (List.mem_append_left _ h)
    | solve path => exact List.mem_append_left _ (List.mem_append_right _ h)
    | benchmark => exact List.mem_append_right _ h

/-- No two options are for the same setting. -/
theorem formFor_of_target (hf : f ∈ flags) (ht : f.target = .setting key) : formFor key = some f.form := by
  have hfind : flags.find? (fun g => g.target = f.target) = some f := by
    simp only [flags, programGrammar, solveGrammar, benchmarkGrammar, List.cons_append, List.nil_append,
      List.mem_cons, List.not_mem_nil, or_false] at hf
    rcases hf with rfl | rfl | rfl | rfl | rfl | rfl | rfl | rfl | rfl | rfl | rfl | rfl | rfl | rfl |
      rfl | rfl <;> rfl
  rw [formFor, ← ht, hfind]
  rfl

theorem mem_keys_of_target (hf : f ∈ flags) (ht : f.target = .setting key) : key ∈ Config.keys := by
  simp only [flags, programGrammar, solveGrammar, benchmarkGrammar, List.cons_append, List.nil_append,
    List.mem_cons, List.not_mem_nil, or_false] at hf
  rcases hf with rfl | rfl | rfl | rfl | rfl | rfl | rfl | rfl | rfl | rfl | rfl | rfl | rfl | rfl |
    rfl | rfl <;> cases ht <;> decide

/-- What is given for a setting, one of the options reads. -/
theorem exists_flag_of_given (hp : parse args = .ok a) (h : (.setting key, v) ∈ a.given) :
    ∃ f ∈ a.command.flags, f.target = .setting key ∧ ∃ s, f.form.read s = .ok v := by
  rcases parse_gives hp _ h with ⟨f, hf, s, ht, hr⟩ | ⟨f, hf, s, ht, hr⟩
  · exact ⟨f, List.mem_append_left _ hf, ht, s, hr⟩
  · exact ⟨f, List.mem_append_right _ hf, ht, s, hr⟩

/-- What an option reads refers to nothing, unless it is a text that does. -/
theorem plain_of_read {s : String} (h : form.read s = .ok v)
    (hv : ∀ s, v = .text s → ¬ Config.opening <:+: s.toList) : Config.Plain v := by
  have hr := read_eq_ok h
  cases form with
  | text =>
    obtain rfl : v = .text s := hr
    exact Config.plain_of_free (hv s rfl)
  | integer =>
    obtain ⟨n, rfl, -⟩ : ∃ n, v = .int n ∧ Text.Printable n := hr
    exact Config.plain_int n
  | real =>
    obtain ⟨x, rfl⟩ : ∃ x, v = .real x := hr
    exact Config.plain_real x
  | choice among =>
    obtain ⟨-, rfl⟩ : s ∈ among ∧ v = .text s := hr
    exact Config.plain_of_free (hv s rfl)

/-- **The configuration** under literal arguments. -/
theorem configure_reads (hp : parse args = .ok a) (ha : a.Literal) (tree : FileTree) :
    ∃ c, configure a tree = .ok c ∧ a.Reads c := by
  refine ⟨Config.defaults.setAll a.settings, ?_, fun key hk => Config.get_setAll (fun x hx => ?_) hk⟩
  · rw [configure, ha.noFile, Config.load_empty]
    rfl
  · obtain ⟨f, hf, ht, s, hr⟩ := exists_flag_of_given hp (mem_settings.1 hx)
    refine ⟨mem_keys_of_target (mem_flags hf) ht, plain_of_read hr ?_⟩
    intro s hs
    exact ha.noReference x.1 s (hs ▸ mem_settings.1 hx)

/-! ## Values -/

/-- A setting has its default, or a value of the form of its option. -/
theorem value_cases (hp : parse args = .ok a) (hform : formFor key = some form) :
    a.value key = Config.initial key ∨ ∃ s, form.read s = .ok (a.value key) := by
  unfold Arguments.value Config.settled
  cases hl : a.settings.reverse.lookup key with
  | none => exact .inl rfl
  | some v =>
    obtain ⟨f, hf, ht, s, hr⟩ := exists_flag_of_given hp (mem_settings.1 (Config.mem_of_lookup hl))
    obtain rfl : f.form = form := Option.some.inj ((formFor_of_target (mem_flags hf) ht).symm.trans hform)
    exact .inr ⟨s, hr⟩

theorem value_integer (hp : parse args = .ok a) (hform : formFor key = some .integer)
    (hi : ∃ n, Config.initial key = .int n) : ∃ n, a.value key = .int n := by
  rcases value_cases hp hform with h | ⟨s, h⟩
  · rwa [h]
  · obtain ⟨n, hn, -⟩ : ∃ n, a.value key = .int n ∧ Text.Printable n := read_eq_ok h
    exact ⟨n, hn⟩

theorem value_choice {among : List String} (hp : parse args = .ok a)
    (hform : formFor key = some (.choice among)) (hi : ∃ s ∈ among, Config.initial key = .text s) :
    ∃ s ∈ among, a.value key = .text s := by
  rcases value_cases hp hform with h | ⟨s, h⟩
  · rwa [h]
  · exact ⟨s, (read_eq_ok h : s ∈ among ∧ a.value key = .text s)⟩

/-- A setting without an option has its default. -/
theorem value_initial (hp : parse args = .ok a) (h : ∀ f ∈ a.command.flags, f.target ≠ .setting key) :
    a.value key = Config.initial key := by
  unfold Arguments.value Config.settled
  cases hl : a.settings.reverse.lookup key with
  | none => rfl
  | some v =>
    obtain ⟨f, hf, ht, -⟩ := exists_flag_of_given hp (mem_settings.1 (Config.mem_of_lookup hl))
    exact absurd ht (h f hf)

theorem no_target_of_formFor (h : formFor key = none) (c : Command) :
    ∀ f ∈ c.flags, f.target ≠ .setting key := by
  intro f hf ht
  rw [formFor_of_target (mem_flags hf) ht] at h
  cases h

theorem printable_initial : ∀ key ∈ Config.keys, (Config.initial key).printable = true := by
  decide +kernel

/-- What an option reads can be printed. -/
theorem printable_of_read {s : String} (h : form.read s = .ok v) : v.printable = true := by
  have hr := read_eq_ok h
  cases form with
  | text =>
    have hv : v = .text s := hr
    simp [hv, Value.printable]
  | integer =>
    obtain ⟨n, rfl, hn⟩ : ∃ n, v = .int n ∧ Text.Printable n := hr
    exact Value.printable_int.2 hn
  | real =>
    obtain ⟨x, rfl⟩ : ∃ x, v = .real x := hr
    simp [Value.printable]
  | choice among =>
    obtain ⟨-, rfl⟩ : s ∈ among ∧ v = .text s := hr
    simp [Value.printable]

/-- **Every setting can be printed.** -/
theorem printable_value (hp : parse args = .ok a) (hk : key ∈ Config.keys) :
    (a.value key).printable = true := by
  cases hform : formFor key with
  | none =>
    rw [value_initial hp (no_target_of_formFor hform _)]
    exact printable_initial key hk
  | some form =>
    rcases value_cases hp hform with h | ⟨s, h⟩
    · rw [h]
      exact printable_initial key hk
    · exact printable_of_read h

end

/-! ## What is read -/

/-- The integer that a setting has. -/
def Arguments.integer (a : Arguments) (key : String) : Int :=
  match a.value key with
  | .int n => n
  | _ => 0

/-- The real number that a setting has. -/
def Arguments.real (a : Arguments) (key : String) : Float :=
  match a.value key with
  | .real x => x
  | _ => 0

/-- The name of the level from which records are logged. -/
def Arguments.level (a : Arguments) : String :=
  match Config.reading (.text "INFO") (a.value "logging.level") with
  | .text s => s
  | _ => ""

/-- No directory for events is given. -/
def Arguments.Unrecorded (a : Arguments) : Prop :=
  (Config.reading .null (a.value "events.dir")).isTrue = false

section
variable {args : List String} {a : Arguments} {c : Config} {key : String}

/-- The integer of a setting can be printed. -/
theorem printable_integer (hp : parse args = .ok a) (hk : key ∈ Config.keys) :
    Text.Printable (a.integer key) := by
  have hprint := printable_value hp hk
  unfold Arguments.integer
  split
  · rename_i n hn
    rw [hn] at hprint
    exact Value.printable_int.1 hprint
  · decide +kernel

/-- Whatever is read for a setting can be printed. -/
theorem Arguments.Reads.printable (h : a.Reads c) (hp : parse args = .ok a) (hk : key ∈ Config.keys)
    {fallback : Value} (hf : fallback.printable = true) : (c.get key fallback).printable = true := by
  rw [h key hk, Config.reading]
  split
  · exact hf
  · exact printable_value hp hk

theorem Arguments.Reads.get_integer (h : a.Reads c) (hp : parse args = .ok a) (hk : key ∈ Config.keys)
    (hform : formFor key = some .integer) (hi : ∃ n, Config.initial key = .int n) (fallback : Value) :
    c.get key fallback = .int (a.integer key) := by
  obtain ⟨n, hn⟩ := value_integer hp hform hi
  rw [h key hk, Arguments.integer, hn]
  rfl

/-- A choice is read as it stands. -/
theorem Arguments.Reads.get_choice (h : a.Reads c) (hp : parse args = .ok a) (hk : key ∈ Config.keys)
    {among : List String} (hform : formFor key = some (.choice among))
    (hi : ∃ s ∈ among, Config.initial key = .text s) (hset : Config.toBeGiven ∉ among) (fallback : Value) :
    ∃ s ∈ among, a.value key = .text s ∧ c.get key fallback = .text s := by
  obtain ⟨s, hs, hv⟩ := value_choice hp hform hi
  have hne : s ≠ Config.toBeGiven := fun e => hset (e ▸ hs)
  refine ⟨s, hs, hv, ?_⟩
  rw [h key hk, hv, Config.reading, if_neg]
  simpa [Config.isUnset] using hne

theorem Arguments.Reads.get_ratio (h : a.Reads c) (hp : parse args = .ok a) (fallback : Value) :
    c.get "benchmark.clause_ratio" fallback = .real (a.real "benchmark.clause_ratio") := by
  have hv : ∃ x, a.value "benchmark.clause_ratio" = .real x := by
    have hform : formFor "benchmark.clause_ratio" = some .real := rfl
    rcases value_cases hp hform with h | ⟨s, h⟩
    · exact ⟨_, h⟩
    · exact read_eq_ok h
  obtain ⟨x, hx⟩ := hv
  rw [h _ (by decide), Arguments.real, hx]
  rfl

/-- The cap, if it is given, is an integer. -/
theorem Arguments.Reads.get_cap (h : a.Reads c) (hp : parse args = .ok a) :
    c.get "solver.max_iterations" .null = a.value "solver.max_iterations" ∧
      (a.value "solver.max_iterations" = .null ∨ ∃ M, a.value "solver.max_iterations" = .int M) := by
  have hform : formFor "solver.max_iterations" = some .integer := rfl
  have hv : a.value "solver.max_iterations" = .null ∨ ∃ M, a.value "solver.max_iterations" = .int M := by
    rcases value_cases hp hform with h | ⟨s, h⟩
    · exact .inl h
    · obtain ⟨M, hM, -⟩ : ∃ n, a.value "solver.max_iterations" = .int n ∧ Text.Printable n := read_eq_ok h
      exact .inr ⟨M, hM⟩
  refine ⟨?_, hv⟩
  rw [h _ (by decide)]
  rcases hv with hv | ⟨M, hv⟩ <;> rw [hv] <;> rfl

/-- The timeout, if it is given, is a number. -/
theorem Arguments.Reads.get_timeout (h : a.Reads c) (hp : parse args = .ok a) :
    c.get "solver.timeout" .null = .null ∨ ∃ x, (c.get "solver.timeout" .null).number? = some x := by
  have hform : formFor "solver.timeout" = some .real := rfl
  rw [h _ (by decide)]
  rcases value_cases hp hform with hv | ⟨s, hr⟩
  · rw [hv]
    exact .inl rfl
  · obtain ⟨x, hv⟩ : ∃ x, a.value "solver.timeout" = .real x := read_eq_ok hr
    rw [hv]
    exact .inr ⟨.real x, rfl⟩

theorem Arguments.Reads.get_level (h : a.Reads c) (hp : parse args = .ok a) :
    c.get "logging.level" (.text "INFO") = .text a.level := by
  have hv : ∃ s, a.value "logging.level" = .text s := by
    have hform : formFor "logging.level" = some .text := rfl
    rcases value_cases hp hform with h | ⟨s, h⟩
    · exact ⟨_, h⟩
    · exact ⟨s, read_eq_ok h⟩
  obtain ⟨s, hs⟩ := hv
  rw [h _ (by decide), Arguments.level, hs, Config.reading]
  split <;> rfl

/-- **Logging** is set up unless its level is unknown. -/
theorem Arguments.Reads.setUp (h : a.Reads c) (hp : parse args = .ok a) (sink : Log.Sink) (tree : FileTree) :
    ∃ sink', Log.setUp sink tree (c.get "logging.level" (.text "INFO")) (c.get "logging.format" .null)
      (c.get "logging.file" .null) =
        (sink', tree, match Log.levelOf? a.level with
          | some _ => .ok ()
          | none => .error (.config (.unknownLevel a.level))) := by
  have hformat : c.get "logging.format" .null = .text Log.defaultFormat := by
    rw [h _ (by decide), value_initial hp (no_target_of_formFor rfl _)]
    rfl
  have hfile : c.get "logging.file" .null = .null := by
    rw [h _ (by decide), value_initial hp (no_target_of_formFor rfl _)]
    rfl
  rw [h.get_level hp, hformat, hfile]
  cases hl : Log.levelOf? a.level with
  | some n => exact setUp_eq (n := n) (by simp [Log.levelNumber, hl]) sink tree
  | none =>
    refine ⟨sink, ?_⟩
    simp [Log.setUp, Log.levelNumber, hl]

end

end LocalSat.Cli
