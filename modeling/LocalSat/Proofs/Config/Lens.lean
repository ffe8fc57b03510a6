import LocalSat.Proofs.Config.Tree
import LocalSat.Proofs.Signed

/-!
# Setting and getting

A configuration that is reached from the defaults by setting layers under dotted keys and laying layers
over the whole has a clear tree (`Reached.clear`), and in a clear tree `get` answers with what stands at
the path of its key, or with the default if nothing stands there or null does (`get_eq_at?`). So `set` and
`get` obey the laws of a lens (`LensLaws`): what is set is got, and no key is disturbed unless one of the
two leads on from the other. `update?` obeys them for all the leaves that it lays at once. Main statement:
`lens_laws`.
-/

namespace LocalSat.Config

open LocalSat.Text

/-! ## Reading clear trees -/

section
variable {c : Config} {v w : Value} {key : String}

theorem Clear.resolve_eq (h : Clear v) (root : Value) (depth : Nat) :
    resolve root (depth + 1) v = .ok v := by
  cases h with
  | plain h => exact h.resolved root depth
  | mapping h => rfl

theorem follow_eq (h : Clear v) (root : Value) (depth : Nat) (ks : List String) :
    follow (resolve root (depth + 1)) v ks = match at? v ks with
      | some w => .ok w
      | none => .error .missing := by
  induction ks generalizing v with
  | nil => exact h.resolve_eq root depth
  | cons k ks ih =>
    rw [follow, h.resolve_eq, at?]
    show (match child? v k with
      | some w => follow (resolve root (depth + 1)) w ks
      | none => .error .missing) = _
    cases hc : child? v k with
    | none => rfl
    | some u => exact ih (h.child? hc)

theorem eq_of_forall₂ {α : Type} {R : α → α → Prop} {as bs : List α} (h : List.Forall₂ R as bs)
    (hR : ∀ a ∈ as, ∀ b, R a b → b = a) : bs = as := by
  induction h with
  | nil => rfl
  | @cons a b as bs hab _ ih =>
    rw [hR a List.mem_cons_self b hab, ih fun a' ha' => hR a' (List.mem_cons_of_mem a ha')]

/-- A clear tree resolves to nothing but itself; it may be too deep to be resolved. -/
theorem eq_of_resolveAll {root : Value} {limit depth : Nat} (h : Clear v)
    (hw : resolveAll root (limit + 1) depth v = .ok w) : w = v := by
  induction depth generalizing v w with
  | zero => cases hw
  | succ depth ih =>
    rw [resolveAll, h.resolve_eq] at hw
    cases h with
    | plain h =>
      have hs := h.single
      cases v with
      | list vs => cases hs
      | mapping es => cases hs
      | _ => cases hw; rfl
    | @mapping es h =>
      simp only [bind, Except.bind] at hw
      split at hw
      · cases hw
      · rename_i fs hfs
        cases hw
        rw [eq_of_forall₂ (mapM_eq_ok_iff.1 hfs) fun x hx y hy => ?_]
        split at hy
        · cases hy
        · rename_i u hu
          cases hy
          rw [ih (h x hx) hu]

/-- **Getting from a clear tree.** -/
theorem get_eq_at? (hc : Clear c.tree) (hkey : key.isEmpty = false) (fallback : Value) :
    c.get key fallback = ((at? c.tree (path key)).map (reading fallback)).getD fallback := by
  unfold get
  simp only [hkey, Bool.false_eq_true, if_false, depthBound, follow_eq hc]
  cases hw : at? c.tree (path key) with
  | none => rfl
  | some w =>
    have hall : ∀ u, resolveAll c.tree (weight c.tree + 1) (weight c.tree + 1) w = .ok u → u = w :=
      fun u hu => eq_of_resolveAll (hc.at? hw) hu
    simp only [Option.map_some, Option.getD_some, reading]
    by_cases hunset : isUnset w = true
    · simp only [hunset, if_true]
    · simp only [hunset]
      cases hr : resolveAll c.tree (weight c.tree + 1) (weight c.tree + 1) w with
      | error e => rfl
      | ok u => exact hall u hr

end

/-! ## Dotted keys -/

/-- The segments of a dotted key: at least one, and all of them names. -/
def IsKey (p : List String) : Prop := p ≠ [] ∧ ∀ k ∈ p, isName k = true

instance (p : List String) : Decidable (IsKey p) := inferInstanceAs (Decidable (_ ∧ _))

/-- The key of the segments. -/
def dotted (p : List String) : String := String.intercalate "." p

section
variable {c : Config} {p q : List String} {v w : Value} {k : String}

theorem not_dot_of_isName (h : isName k = true) : ∀ x ∈ k.toList, (x == '.') = false := by
  intro x hx
  have hall : k.toList.all (fun y => isLetter y || y.isDigit || y == '_') = true :=
    (Bool.and_eq_true_iff.1 h).2
  have hx' := List.all_eq_true.1 hall x hx
  by_contra hdot
  obtain rfl : x = '.' := by simpa using hdot
  revert hx'
  decide

theorem path_dotted (h : IsKey p) : path (dotted p) = p := by
  have hpieces : pieces (· == '.') (dotted p).toList = p.map String.toList := by
    rw [dotted, String.toList_intercalate]
    refine pieces_intercalate rfl (by simpa using h.1) fun cs hcs => ?_
    obtain ⟨k, hk, rfl⟩ := List.mem_map.1 hcs
    exact not_dot_of_isName (h.2 k hk)
  rw [path, fields, hpieces, List.map_map]
  simp [Function.comp_def]

theorem isEmpty_dotted (h : IsKey p) : (dotted p).isEmpty = false := by
  by_contra hempty
  have hd : dotted p = "" := by simpa using hempty
  have hp : p = [""] := by
    rw [← path_dotted h, hd]
    rfl
  have hname := h.2 "" (by simp [hp])
  revert hname
  decide

theorem get_dotted (hc : Clear c.tree) (hp : IsKey p) (fallback : Value) :
    c.get (dotted p) fallback = ((at? c.tree p).map (reading fallback)).getD fallback := by
  rw [get_eq_at? hc (isEmpty_dotted hp), path_dotted hp]

theorem set_dotted (hc : Clear c.tree) (hp : IsKey p) (hv : Layer v) :
    ∃ t, c.set (dotted p) v = (⟨t⟩, true) ∧ Clear t ∧ at? t p = some (merge (at? c.tree p) v).1 ∧
      ∀ q, Apart p q → at? t q = at? c.tree q := by
  obtain ⟨t, hput, ht⟩ := put_spec hv hc hp.1
  exact ⟨t, by rw [set, path_dotted hp, hput], ht⟩

theorem layer_at? (hv : Layer v) (hw : at? v q = some w) :
    Layer w ∧ ∀ k ∈ q, isName k = true := by
  induction q generalizing v with
  | nil =>
    cases hw
    exact ⟨hv, by simp⟩
  | cons k ks ih =>
    cases hv with
    | leaf h => simp [at?, child?_of_single h.plain.single] at hw
    | mapping nonempty distinct names entries =>
      obtain ⟨u, hu, huw⟩ := Option.bind_eq_some_iff.1 hw
      have hmem := lookup?_mem hu
      obtain ⟨hlayer, hnames⟩ := ih (entries _ hmem) huw
      refine ⟨hlayer, fun j hj => ?_⟩
      rcases List.mem_cons.1 hj with rfl | hj
      · exact names _ hmem
      · exact hnames j hj

/-- The path of a leaf of a mapping is that of a key. -/
theorem isKey_of_at? {es : List (String × Value)} (hv : Layer (.mapping es))
    (hw : at? (.mapping es) q = some w) (hs : isContainer w = false) : IsKey q := by
  refine ⟨?_, (layer_at? hv hw).2⟩
  rintro rfl
  cases hw
  cases hs

end

/-- A value, or the default for a null. -/
def orDefault (d : Value) : Value → Value
  | .null => d
  | v => v

theorem orDefault_of_ne {v : Value} (hv : v ≠ .null) (d : Value) : orDefault d v = v := by
  unfold orDefault
  split
  · exact absurd rfl hv
  · rfl

/-! ## Configurations that are reached -/

/-- No null in what is put at the path would take the place of a mapping. -/
def Spares (tree : Value) (p : List String) (v : Value) : Prop :=
  ∀ q, at? v q = some .null → ∀ es, at? tree (p ++ q) ≠ some (.mapping es)

theorem spares_of_single {tree v : Value} {p : List String} (hs : isContainer v = false)
    (h : v = .null → ∀ es, at? tree p ≠ some (.mapping es)) : Spares tree p v := by
  intro q hq es
  obtain ⟨rfl, hv⟩ := (at?_of_single hs).1 hq
  simpa using h hv.symm es

theorem spares_mapping {tree : Value} {p : List String} {es : List (String × Value)}
    (h : ∀ x ∈ es, Spares tree (p ++ [x.1]) x.2) : Spares tree p (.mapping es) := by
  intro q hq ds
  cases q with
  | nil => cases hq
  | cons k ks =>
    obtain ⟨u, hu, huw⟩ := Option.bind_eq_some_iff.1 hq
    have hspares := h _ (lookup?_mem hu) ks huw ds
    simpa using hspares

/-- The configurations that setting and laying layers lead to from the defaults. -/
inductive Reached : Config → Prop
  | defaults : Reached defaults
  | set {c : Config} {p : List String} {v : Value} (before : Reached c) (key : IsKey p) (layer : Layer v)
      (spares : Spares c.tree p v) : Reached (c.set (dotted p) v).1
  | update {c c' : Config} {es : List (String × Value)} (before : Reached c) (layer : Layer (.mapping es))
      (spares : Spares c.tree [] (.mapping es)) (laid : c.update? (.mapping es) = some c') : Reached c'

theorem clear_defaults : Clear defaults.tree := by
  refine .mapping fun x hx => ?_
  simp only [List.mem_cons, List.not_mem_nil, or_false] at hx
  rcases hx with rfl | rfl | rfl | rfl
  all_goals
    refine .mapping fun y hy => .plain ?_
    simp only [List.mem_cons, List.not_mem_nil, or_false] at hy
    rcases hy with rfl | rfl | rfl | rfl | rfl | rfl
    all_goals
      first
        | exact plain_null
        | exact plain_int _
        | exact plain_real _
        | exact plain_of_no_dollar (by simp)

section
variable {c : Config}

theorem update?_eq {es : List (String × Value)} (hc : Clear c.tree) (hv : Layer (.mapping es)) :
    c.update? (.mapping es) = some ⟨(merge (some c.tree) (.mapping es)).1⟩ ∧
      Clear (merge (some c.tree) (.mapping es)).1 := by
  obtain ⟨t, ht, htc⟩ := merge_clear hv (some c.tree) fun w hw => by cases hw; exact hc
  rw [update?, ht]
  exact ⟨rfl, htc⟩

theorem Reached.clear (h : Reached c) : Clear c.tree := by
  induction h with
  | defaults => exact clear_defaults
  | set before key layer spares ih =>
    obtain ⟨t, ht, htc, -⟩ := set_dotted ih key layer
    rw [ht]
    exact htc
  | update before layer spares laid ih =>
    obtain ⟨hlaid, htc⟩ := update?_eq ih layer
    rw [hlaid] at laid
    cases laid
    exact htc

end

/-! ## The laws -/

/-- What is read of a configuration before and after a change by one of its operations. -/
structure LensLaws (c : Config) : Prop where
  /-- What is set is got, whatever the default. -/
  got {p : List String} {v : Value} (key : IsKey p) (leaf : Leaf v) (value : v ≠ .null) :
    (c.set (dotted p) v).2 = true ∧ (∀ d, (c.set (dotted p) v).1.get (dotted p) d = v) ∧
      (c.set (dotted p) v).1.contains (dotted p) = true
  /-- Setting a key disturbs no key apart from it. -/
  kept {p q : List String} {v : Value} (key : IsKey p) (leaf : Leaf v) (key' : IsKey q)
    (apart : Apart p q) (d : Value) : (c.set (dotted p) v).1.get (dotted q) d = c.get (dotted q) d
  /-- A key that is set to null is as if it were not there. -/
  erased {p : List String} (key : IsKey p) (single : ∀ es, at? c.tree p ≠ some (.mapping es)) :
    (c.set (dotted p) .null).2 = true ∧ (∀ d, (c.set (dotted p) .null).1.get (dotted p) d = d) ∧
      (c.set (dotted p) .null).1.contains (dotted p) = false
  /-- A layer is laid over the configuration: its leaves are got, with the default for a null, and no key
  apart from them all is disturbed. -/
  laid {es : List (String × Value)} (layer : Layer (.mapping es))
    (spares : Spares c.tree [] (.mapping es)) : ∃ c', c.update? (.mapping es) = some c' ∧
      (∀ q v, at? (.mapping es) q = some v → isContainer v = false → IsKey q ∧
        ∀ d, c'.get (dotted q) d = orDefault d v) ∧
      ∀ q, IsKey q → (∀ r v, at? (.mapping es) r = some v → isContainer v = false → Apart r q) →
        ∀ d, c'.get (dotted q) d = c.get (dotted q) d

section
variable {c : Config} {p q : List String} {v : Value}

theorem reading_leaf (h : Leaf v) (d : Value) : reading d v = orDefault d v := by
  by_cases hv : v = .null
  · subst hv
    rfl
  · rw [reading, h.isUnset hv, orDefault_of_ne hv d]
    rfl

theorem contains_eq_true_iff {key : String} : c.contains key = true ↔ c.get key .null ≠ .null := by
  unfold contains
  cases c.get key .null <;> simp

theorem get_set (hc : Clear c.tree) (hp : IsKey p) (hv : Leaf v) :
    (c.set (dotted p) v).2 = true ∧ ∀ d, (c.set (dotted p) v).1.get (dotted p) d = orDefault d v := by
  obtain ⟨t, ht, htc, hat, -⟩ := set_dotted hc hp (.leaf hv)
  rw [ht]
  refine ⟨rfl, fun d => ?_⟩
  rw [get_dotted htc hp, hat, merge_leaf hv.plain.single, ← reading_leaf hv]
  rfl

theorem get_set_apart (hc : Clear c.tree) (hp : IsKey p) (hv : Leaf v) (hq : IsKey q) (h : Apart p q)
    (d : Value) : (c.set (dotted p) v).1.get (dotted q) d = c.get (dotted q) d := by
  obtain ⟨t, ht, htc, -, hframe⟩ := set_dotted hc hp (.leaf hv)
  rw [ht, get_dotted htc hq, get_dotted hc hq, hframe q h]

end

/-- **The laws of a lens** hold in every configuration that is reached from the defaults. -/
theorem lens_laws {c : Config} (h : Reached c) : LensLaws c where
  got key leaf value := by
    obtain ⟨hflag, hget⟩ := get_set h.clear key leaf
    refine ⟨hflag, fun d => (hget d).trans (orDefault_of_ne value d), contains_eq_true_iff.2 ?_⟩
    rw [hget, orDefault_of_ne value]
    exact value
  kept key leaf key' apart d := get_set_apart h.clear key leaf key' apart d
  erased key single := by
    obtain ⟨hflag, hget⟩ := get_set h.clear key .null
    refine ⟨hflag, hget, ?_⟩
    rw [← Bool.not_eq_true, contains_eq_true_iff, hget]
    simp [orDefault]
  laid layer spares := by
    obtain ⟨hlaid, htc⟩ := update?_eq h.clear layer
    have hthere : ∀ w, some c.tree = some w → Clear w := fun w hw => by cases hw; exact h.clear
    refine ⟨_, hlaid, fun q v hv hs => ?_, fun q hq happart d => ?_⟩
    · have hkey := isKey_of_at? layer hv hs
      refine ⟨hkey, fun d => ?_⟩
      rw [get_dotted htc hkey, at?_merge_leaf layer hthere hv hs,
        ← reading_leaf ((layer_at? layer hv).1.single_leaf hs)]
      rfl
    · rw [get_dotted htc hq, get_dotted h.clear hq, at?_merge_apart layer hthere happart]
      rfl

theorem lens_laws_through_scalar :
    let c := (defaults.set (dotted ["solver", "seed"]) (.int 7)).1
    let c' := (c.set (dotted ["solver", "seed", "low"]) (.bool false)).1
    c'.get (dotted ["solver", "seed", "low"]) (.int 1) = .bool false ∧
      c'.get (dotted ["solver", "name"]) .null = .text "greedy" ∧
      ∃ c'', c.update? (.mapping [("solver", .mapping [("seed", .null)])]) = some c'' ∧
        c''.get (dotted ["solver", "seed"]) (.int 3) = .int 3 := by
  intro c c'
  have hreached : Reached c :=
    .set .defaults (by decide) (.leaf (.int 7)) (spares_of_single rfl fun h => by cases h)
  have laws := lens_laws hreached
  have hname : c.get (dotted ["solver", "name"]) .null = .text "greedy" := by
    rw [get_set_apart clear_defaults (by decide) (.int 7) (by decide) (by decide),
      get_dotted clear_defaults (by decide)]
    rfl
  have hlayer : Layer (.mapping [("solver", .mapping [("seed", .null)])]) :=
    .mapping (by simp) (by simp) (by decide) fun x hx => by
      rw [List.mem_singleton.1 hx]
      exact .mapping (by simp) (by simp) (by decide) fun y hy => by
        rw [List.mem_singleton.1 hy]
        exact .leaf .null
  have hspares : Spares c.tree [] (.mapping [("solver", .mapping [("seed", .null)])]) :=
    spares_mapping fun x hx => by
      rw [List.mem_singleton.1 hx]
      exact spares_mapping fun y hy => by
        rw [List.mem_singleton.1 hy]
        have hseed : at? c.tree ["solver", "seed"] = some (.int 7) := rfl
        exact spares_of_single rfl fun _ es => by simp [hseed]
  obtain ⟨c'', hlaid, hleaf, -⟩ := laws.laid hlayer hspares
  refine ⟨(laws.got (by decide) (.bool false) (by simp)).2.1 _, ?_, c'', hlaid, ?_⟩
  · exact (laws.kept (by decide) (.bool false) (by decide) (by decide) .null).trans hname
  · exact (hleaf ["solver", "seed"] .null rfl rfl).2 (.int 3)

end LocalSat.Config
