import LocalSat.Cli.Arguments

/-!
# What arguments give

Every value that the arguments of the program give for a target is one that an option of the program or
of its command reads (`parse_gives`), since a token stands for an option of its grammar only and reading
takes values nowhere else. And every combination of options of the solve command is accepted
(`parse_choices`): to the program's own grammar they are foreign, and to the command's they are known.
-/

namespace LocalSat.Cli

/-- The value is one that an option of the grammar reads for the target. -/
def Grammar.Gives (g : Grammar) (x : Target × Value) : Prop :=
  ∃ f ∈ g.flags, ∃ s, f.target = x.1 ∧ f.form.read s = .ok x.2

/-- The token stands for an option of the grammar, if for an option with a value at all. -/
def Token.Of (g : Grammar) : Token → Prop
  | .flag f _ => f ∈ g.flags
  | _ => True

section
variable {g : Grammar} {s : String} {t : Token} {p q : Parsed}

/-! ## Tokens -/

theorem of_spelling {e : String × (Option String → Token)} (h : e ∈ spellings g) (value : Option String) :
    (e.2 value).Of g := by
  simp only [spellings, List.mem_cons, List.mem_map] at h
  rcases h with rfl | rfl | ⟨f, hf, rfl⟩
  · trivial
  · trivial
  · exact hf

theorem of_lookup {name : String} {token : Option String → Token}
    (h : (spellings g).lookup name = some token) (value : Option String) : (token value).Of g := by
  obtain ⟨l₁, l₂, hl, -⟩ := List.lookup_eq_some_iff.1 h
  have hmem : (name, token) ∈ spellings g := by
    rw [hl]
    simp
  exact of_spelling hmem value

theorem of_abbreviated {e : String × Token} (h : e ∈ abbreviated g s) : e.2.Of g := by
  unfold abbreviated at h
  split at h
  · simp only [List.mem_filterMap] at h
    obtain ⟨x, hx, hxe⟩ := h
    split at hxe
    · cases hxe
      exact of_spelling hx _
    · cases hxe
  · simp only [List.mem_filterMap] at h
    obtain ⟨x, hx, hxe⟩ := h
    split at hxe
    · cases hxe
      exact of_spelling hx _
    · cases hxe

theorem of_classifyOne (h : classifyOne g s = .ok t) : t.Of g := by
  unfold classifyOne at h
  split at h
  · cases h
    trivial
  · split at h
    · rename_i token htoken
      cases h
      exact of_lookup htoken none
    · split at h
      · cases h
        trivial
      · simp only at h
        split at h
        · rename_i token htoken
          cases h
          split at htoken
          · exact of_lookup htoken _
          · cases htoken
        · split at h
          · rename_i x token habbr
            cases h
            exact of_abbreviated (e := (x, t)) (by rw [habbr]; exact List.mem_cons_self)
          · split at h
            · cases h
              trivial
            · cases h
              trivial
          · cases h

theorem of_classify : ∀ {ss : List String} {ts : List Token}, classify g ss = .ok ts → ∀ t ∈ ts, t.Of g
  | [], ts, h => by
    cases h
    simp
  | s :: ss, ts, h => by
    unfold classify at h
    split at h
    · cases h
      intro t ht
      rcases List.mem_cons.1 ht with rfl | ht
      · trivial
      · obtain ⟨w, -, rfl⟩ := List.mem_map.1 ht
        trivial
    · split at h
      · cases h
      · rename_i t₀ h₀
        cases hts : classify g ss with
        | error e =>
          rw [hts] at h
          cases h
        | ok rest =>
          rw [hts] at h
          cases h
          intro t ht
          rcases List.mem_cons.1 ht with rfl | ht
          · exact of_classifyOne h₀
          · exact of_classify hts t ht

/-! ## Reading -/

theorem gives_take {f : Flag} (hf : f ∈ g.flags) (hp : ∀ x ∈ p.given, g.Gives x)
    (h : p.take g f s = .ok q) : ∀ x ∈ q.given, g.Gives x := by
  unfold Parsed.take at h
  split at h
  · cases h
  · rename_i v hv
    cases h
    intro x hx
    rcases List.mem_append.1 hx with hx | hx
    · exact hp x hx
    · rw [List.mem_singleton.1 hx]
      exact ⟨f, hf, s, rfl, hv⟩

theorem gives_walk {ts : List Token} (hts : ∀ t ∈ ts, t.Of g) (hp : ∀ x ∈ p.given, g.Gives x)
    (h : walk g p ts = .ok q) : ∀ x ∈ q.given, g.Gives x := by
  fun_induction walk g p ts with
  | case1 p =>
    cases h
    exact hp
  | case2 | case3 | case5 | case7 => cases h
  | case4 p f s ts p' htake ih =>
    have hf : f ∈ g.flags := hts (.flag f (some s)) List.mem_cons_self
    exact ih (fun t ht => hts t (List.mem_cons_of_mem _ ht)) (gives_take hf hp htake) h
  | case6 p f s ts p' htake ih =>
    have hf : f ∈ g.flags := hts (.flag f none) List.mem_cons_self
    have hrest : ∀ t ∈ ts, t.Of g := fun t ht =>
      hts t (List.mem_cons_of_mem _ (List.mem_cons_of_mem _ ht))
    exact ih hrest (gives_take hf hp htake) h
  | case8 p s ts ih => exact ih (fun t ht => hts t (List.mem_cons_of_mem _ ht)) hp h
  | case9 p s ts name _ _ ih =>
    exact ih (fun t ht => hts t (List.mem_cons_of_mem _ (List.mem_cons_of_mem _ ht))) hp h
  | case10 p s name _ _ ts _ ih => exact ih (fun t ht => hts t (List.mem_cons_of_mem _ ht)) hp h
  | case11 p s ts _ ih => exact ih (fun t ht => hts t (List.mem_cons_of_mem _ ht)) hp h
  | case12 p s ts name _ _ ih =>
    exact ih (fun t ht => hts t (List.mem_cons_of_mem _ (List.mem_cons_of_mem _ ht))) hp h
  | case13 p s ts _ ih =>
    exact ih (fun t ht => hts t (List.mem_cons_of_mem _ (List.mem_cons_of_mem _ ht))) hp h
  | case14 p ts _ ih => exact ih (fun t ht => hts t (List.mem_cons_of_mem _ ht)) hp h

theorem given_commandNamed {among ss : List String} (h : findCommand.commandNamed g among p s ss = .ok q) :
    q.given = p.given := by
  unfold findCommand.commandNamed at h
  split at h
  · cases h
    rfl
  · cases h

theorem gives_findCommand {among ss : List String} {ts : List Token} (hts : ∀ t ∈ ts, t.Of g)
    (hp : ∀ x ∈ p.given, g.Gives x) (h : findCommand g among p ts ss = .ok q) :
    ∀ x ∈ q.given, g.Gives x := by
  fun_induction findCommand g among p ts ss with
  | case1 | case2 =>
    rw [given_commandNamed h]
    exact hp
  | case3 | case5 | case7 | case8 => cases h
  | case4 p f s ts _ _ ss p' htake ih =>
    have hf : f ∈ g.flags := hts (.flag f none) List.mem_cons_self
    have hrest : ∀ t ∈ ts, t.Of g := fun t ht =>
      hts t (List.mem_cons_of_mem _ (List.mem_cons_of_mem _ ht))
    exact ih hrest (gives_take hf hp htake) h
  | case6 p f s ts _ ss p' htake ih =>
    have hf : f ∈ g.flags := hts (.flag f (some s)) List.mem_cons_self
    exact ih (fun t ht => hts t (List.mem_cons_of_mem _ ht)) (gives_take hf hp htake) h
  | case9 p s ts _ ss ih => exact ih (fun t ht => hts t (List.mem_cons_of_mem _ ht)) hp h
  | case10 p ts _ ss _ ih => exact ih (fun t ht => hts t (List.mem_cons_of_mem _ ht)) hp h
  | case11 =>
    cases h
    exact hp

/-- A grammar gives what its options read. -/
theorem Grammar.parse_gives {args : List String} (h : g.parse args = .ok q) : ∀ x ∈ q.given, g.Gives x := by
  have hempty : ∀ x ∈ Parsed.empty.given, g.Gives x := by simp [Parsed.empty]
  unfold Grammar.parse at h
  split at h
  · cases h
  · rename_i ts hts
    split at h
    · exact gives_findCommand (of_classify hts) hempty h
    · exact gives_walk (of_classify hts) hempty h
    · split at h
      · cases h
      · rename_i p hp
        split at h
        · cases h
        · cases h
          exact gives_walk (of_classify hts) hempty hp

end

/-- The grammar of a command. -/
def Command.grammar : Command → Grammar
  | .none => programGrammar
  | .solve _ => solveGrammar
  | .benchmark => benchmarkGrammar

theorem gives_together {g : Grammar} {args rest : List String} {p q : Parsed}
    (hp : programGrammar.parse args = .ok p) (hq : g.parse rest = .ok q) :
    ∀ x ∈ p.given ++ q.given, programGrammar.Gives x ∨ g.Gives x := by
  intro x hx
  rcases List.mem_append.1 hx with hx | hx
  · exact Or.inl (Grammar.parse_gives hp x hx)
  · exact Or.inr (Grammar.parse_gives hq x hx)

/-- **What is given**, the program or its command reads. -/
theorem parse_gives {args : List String} {a : Arguments} (h : parse args = .ok a) :
    ∀ x ∈ a.given, programGrammar.Gives x ∨ a.command.grammar.Gives x := by
  unfold parse at h
  split at h
  · cases h
  · rename_i p hp
    split at h
    · obtain ⟨-, rfl⟩ := refuse_eq_ok_iff.1 h
      exact fun x hx => Or.inl (Grammar.parse_gives hp x hx)
    · split at h
      · cases h
      · rename_i q hq
        obtain ⟨-, rfl⟩ := refuse_eq_ok_iff.1 h
        exact gives_together hp hq
    · split at h
      · cases h
      · rename_i q hq
        obtain ⟨-, rfl⟩ := refuse_eq_ok_iff.1 h
        exact gives_together hp hq

/-! ## Options of the solve command -/

/-- An option with its value behind an equals sign. -/
def spelled (name value : String) : String := name ++ "=" ++ value

section
variable {g : Grammar} {f : Flag} {name value s : String}

theorem toList_spelled : (spelled name value).toList = name.toList ++ '=' :: value.toList := by
  simp [spelled]

theorem splitValue_spelled (h : '=' ∉ name.toList) :
    splitValue (spelled name value) = (name, some value) := by
  have htake : (spelled name value).toList.takeWhile (· != '=') = name.toList := by
    rw [toList_spelled, List.takeWhile_append_of_pos]
    · simp
    · intro c hc
      simp only [bne_iff_ne, ne_eq]
      exact fun e => h (e ▸ hc)
  unfold splitValue
  simp only [htake]
  rw [toList_spelled, List.drop_left]
  simp

/-- No spelling holds an equals sign, so an option with its value is none. -/
theorem lookup_spelled (h : ∀ n ∈ (spellings g).map Prod.fst, '=' ∉ n.toList) :
    (spellings g).lookup (spelled name value) = none := by
  rw [List.lookup_eq_none_iff]
  intro e he
  rw [bne_iff_ne]
  intro heq
  refine h e.1 (List.mem_map_of_mem he) ?_
  rw [← heq, toList_spelled]
  simp

theorem startsWith_spelled (value : String) (h : "--".toList <+: name.toList) :
    (spelled name value).startsWith "-" = true ∧ (spelled name value).startsWith "--" = true ∧
      (spelled name value).length ≠ 1 := by
  obtain ⟨cs, hcs⟩ := h
  have hl : (spelled name value).toList = '-' :: '-' :: (cs ++ '=' :: value.toList) := by
    rw [toList_spelled, ← hcs]
    rfl
  refine ⟨?_, ?_, ?_⟩
  · rw [String.startsWith_string_iff, hl]
    exact ⟨_, rfl⟩
  · rw [String.startsWith_string_iff, hl]
    exact ⟨_, rfl⟩
  · rw [← String.length_toList, hl]
    simp

theorem classifyOne_spelled (hdash : "--".toList <+: f.name.toList) (hname : '=' ∉ f.name.toList)
    (hno : ∀ n ∈ (spellings g).map Prod.fst, '=' ∉ n.toList)
    (hf : (spellings g).lookup f.name = some (.flag f)) :
    classifyOne g (spelled f.name value) = .ok (.flag f (some value)) := by
  obtain ⟨h₁, -, hlen⟩ := startsWith_spelled value hdash
  unfold classifyOne
  simp [h₁, lookup_spelled hno, hlen, splitValue_spelled hname, hf]

/-- An option that no spelling of the grammar begins with is unknown to it, or a word. -/
theorem classifyOne_foreign (hdash : "--".toList <+: name.toList) (hname : '=' ∉ name.toList)
    (hno : ∀ n ∈ (spellings g).map Prod.fst, '=' ∉ n.toList)
    (hforeign : ∀ n ∈ (spellings g).map Prod.fst, ¬ name.toList <+: n.toList) :
    ∃ t, classifyOne g (spelled name value) = .ok t := by
  obtain ⟨h₁, h₂, hlen⟩ := startsWith_spelled value hdash
  have hlook : (spellings g).lookup name = none := by
    rw [List.lookup_eq_none_iff]
    intro e he
    rw [bne_iff_ne]
    intro heq
    exact hforeign e.1 (List.mem_map_of_mem he) (heq ▸ List.prefix_rfl)
  have habbr : abbreviated g (spelled name value) = [] := by
    unfold abbreviated
    rw [if_pos h₂, splitValue_spelled hname, List.filterMap_eq_nil_iff]
    intro e he
    have hne : ¬ e.1.startsWith name = true := by
      rw [String.startsWith_string_iff]
      exact hforeign e.1 (List.mem_map_of_mem he)
    exact if_neg hne
  unfold classifyOne
  simp only [h₁, lookup_spelled hno, hlen, splitValue_spelled hname, hlook, habbr]
  simp only [Bool.not_true, Bool.false_eq_true, if_false, Option.isSome_some, if_true]
  split <;> exact ⟨_, rfl⟩

theorem classify_cons {t : Token} {ts : List Token} {ss : List String} (hs : s ≠ "--")
    (ht : classifyOne g s = .ok t) (hts : classify g ss = .ok ts) :
    classify g (s :: ss) = .ok (t :: ts) := by
  unfold classify
  simp [hs, ht, hts, Except.map]

theorem classify_isOk : ∀ {ss : List String}, (∀ s ∈ ss, s ≠ "--" ∧ ∃ t, classifyOne g s = .ok t) →
    ∃ ts, classify g ss = .ok ts
  | [], _ => ⟨[], rfl⟩
  | s :: ss, h => by
    obtain ⟨hs, t, ht⟩ := h s List.mem_cons_self
    obtain ⟨ts, hts⟩ := classify_isOk fun s' hs' => h s' (List.mem_cons_of_mem _ hs')
    exact ⟨t :: ts, classify_cons hs ht hts⟩

theorem spelled_ne_dashes (hdash : "--".toList <+: name.toList) : spelled name value ≠ "--" := by
  obtain ⟨cs, hcs⟩ := hdash
  intro h
  have hl := congrArg (fun s => s.toList.length) h
  simp only [toList_spelled, ← hcs] at hl
  simp at hl

theorem classifyOne_word (h : s.startsWith "-" = false) : classifyOne g s = .ok (.word s) := by
  simp [classifyOne, h]

end

/-- An option of the solve command with a text that it reads as a value. -/
structure Choice where
  flag : Flag
  text : String
  value : Value
  known : flag ∈ solveGrammar.flags
  read : flag.form.read text = .ok value

/-- The argument of a choice. -/
def Choice.argument (o : Choice) : String := spelled o.flag.name o.text

/-- What a choice gives. -/
def Choice.gives (o : Choice) : Target × Value := (o.flag.target, o.value)

theorem name_of_known {f : Flag} (h : f ∈ solveGrammar.flags) : "--".toList <+: f.name.toList ∧
    '=' ∉ f.name.toList ∧ (spellings solveGrammar).lookup f.name = some (.flag f) ∧
    ∀ n ∈ (spellings programGrammar).map Prod.fst, ¬ f.name.toList <+: n.toList := by
  simp only [solveGrammar, List.mem_cons, List.not_mem_nil, or_false] at h
  rcases h with rfl | rfl | rfl | rfl | rfl | rfl | rfl <;>
    exact ⟨by decide, by decide, rfl, by decide⟩

theorem walk_choices : ∀ (os : List Choice) (p : Parsed),
    walk solveGrammar p (os.map fun o => .flag o.flag (some o.text)) =
      .ok { p with given := p.given ++ os.map Choice.gives }
  | [], p => by simp [walk]
  | o :: os, p => by
    have htake : p.take solveGrammar o.flag o.text =
        .ok { p with given := p.given ++ [o.gives] } := by
      simp [Parsed.take, o.read, Choice.gives]
    rw [List.map_cons, walk, htake]
    simp only
    rw [walk_choices os]
    simp

theorem classify_choices : ∀ os : List Choice, classify solveGrammar (os.map Choice.argument) =
    .ok (os.map fun o => .flag o.flag (some o.text))
  | [] => rfl
  | o :: os => by
    obtain ⟨hdash, hname, hlook, -⟩ := name_of_known o.known
    exact classify_cons (spelled_ne_dashes hdash)
      (classifyOne_spelled hdash hname (by decide) hlook) (classify_choices os)

/-- **Every combination of options** of the solve command is accepted, with any file whose path does not
look like an option. -/
theorem parse_choices {path : String} (hpath : path.startsWith "-" = false) (os : List Choice) :
    parse ("solve" :: path :: os.map Choice.argument) = .ok ⟨.solve path, os.map Choice.gives⟩ := by
  have hdashes : path ≠ "--" := by
    rintro rfl
    exact absurd hpath (by decide +kernel)
  -- to the program's own grammar the options are foreign
  have hforeign : ∀ s ∈ path :: os.map Choice.argument, s ≠ "--" ∧
      ∃ t, classifyOne programGrammar s = .ok t := by
    intro s hs
    rcases List.mem_cons.1 hs with rfl | hs
    · exact ⟨hdashes, _, classifyOne_word hpath⟩
    · obtain ⟨o, -, rfl⟩ := List.mem_map.1 hs
      obtain ⟨hdash, hname, -, hf⟩ := name_of_known o.known
      exact ⟨spelled_ne_dashes hdash, classifyOne_foreign hdash hname (by decide) hf⟩
  obtain ⟨ts, hts⟩ := classify_isOk hforeign
  have hsolve : classifyOne programGrammar "solve" = .ok (.word "solve") := classifyOne_word (by decide +kernel)
  have hprogram : programGrammar.parse ("solve" :: path :: os.map Choice.argument) =
      .ok { Parsed.empty with word := some "solve", rest := path :: os.map Choice.argument } := by
    unfold Grammar.parse
    rw [classify_cons (by decide) hsolve hts]
    rfl
  have hsub : solveGrammar.parse (path :: os.map Choice.argument) =
      .ok { Parsed.empty with word := some path, given := os.map Choice.gives } := by
    unfold Grammar.parse
    rw [classify_cons hdashes (classifyOne_word hpath) (classify_choices os)]
    have hword : walk solveGrammar .empty (.word path :: os.map fun o => .flag o.flag (some o.text)) =
        walk solveGrammar { Parsed.empty with word := some path }
          (os.map fun o => .flag o.flag (some o.text)) := by
      cases os <;> rfl
    rw [walk_choices] at hword
    simp only [show solveGrammar.positional = .one "file" from rfl, hword]
    rfl
  unfold parse
  rw [hprogram]
  simp only
  rw [hsub]
  rfl

end LocalSat.Cli
