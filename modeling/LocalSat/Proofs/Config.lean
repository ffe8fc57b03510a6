import LocalSat.Config

/-!
# Entries of sections

The settings of the program are entries of the sections of its configuration. Setting an entry changes
that entry and no other (`entry?_set`), the last of several values that are set for it stays
(`entry?_setAll`), and an entry that refers to nothing is read as it stands (`get_eq`). So every setting
that has a default is read as the last value laid over it (`get_setAll`).
-/

namespace LocalSat.Config

/-- The entry of a section. -/
def entry? (c : Config) (a b : String) : Option Value :=
  (Value.field? c.tree a).bind fun entries => Value.field? entries b

section
variable {c : Config} {a b a' b' key : String} {v w : Value}

theorem entry?_eq_some_iff : c.entry? a b = some w ↔ ∃ es ds, c.tree = .mapping es ∧
    Value.lookup? a es = some (.mapping ds) ∧ Value.lookup? b ds = some w := by
  unfold entry?
  cases c.tree with
  | mapping es =>
    simp only [Value.field?, Option.bind_eq_some_iff, Value.mapping.injEq]
    constructor
    · rintro ⟨s, hs, hw⟩
      cases s with
      | mapping ds => exact ⟨es, ds, rfl, hs, hw⟩
      | _ => cases hw
    · rintro ⟨es', ds, rfl, hs, hw⟩
      exact ⟨_, hs, hw⟩
  | _ => simp [Value.field?]

/-- **Setting an entry** that is there changes it alone. -/
theorem entry?_set (hk : path key = [a, b]) (hw : c.entry? a b = some w) (hv : isContainer v = false)
    (a' b' : String) :
    entry? (c.set key v).1 a' b' = if path key = [a', b'] then some v else c.entry? a' b' := by
  obtain ⟨es, ds, ht, hs, hb⟩ := entry?_eq_some_iff.1 hw
  have hnext : ((child? (.mapping es) a).filter isContainer).getD (.mapping []) = .mapping ds := by
    rw [child?, hs]
    rfl
  have hset : (c.set key v).1 =
      ⟨.mapping (Value.insert a (.mapping (Value.insert b v ds)) es)⟩ := by
    have hentry : child? (.mapping ds) b = some w := hb
    simp [set, hk, ht, put, hnext, hentry, hv, withChild]
  rw [hset, hk]
  unfold entry?
  simp only [ht, Value.field?]
  by_cases ha : a' = a
  · subst ha
    rw [Value.lookup?_insert_self, hs]
    by_cases hb' : b' = b
    · subst hb'
      simp [Value.lookup?_insert_self]
    · simp [Value.lookup?_insert_of_ne v hb', Ne.symm hb']
  · rw [Value.lookup?_insert_of_ne _ ha, if_neg (by simp [Ne.symm ha])]

/-- Lays settings over a configuration, one after the other. -/
def setAll (c : Config) (settings : List (String × Value)) : Config :=
  settings.foldl (fun c (key, v) => (c.set key v).1) c

/-- The settings are of entries that are there, and of single values. -/
def Settable (c : Config) (settings : List (String × Value)) : Prop :=
  ∀ x ∈ settings, ∃ a b w, path x.1 = [a, b] ∧ c.entry? a b = some w ∧ isContainer x.2 = false

theorem Settable.set {settings : List (String × Value)} (h : c.Settable settings)
    (hk : path key = [a, b]) (hw : c.entry? a b = some w) (hv : isContainer v = false) :
    (c.set key v).1.Settable settings := by
  intro x hx
  obtain ⟨a', b', w', hp, he, hc⟩ := h x hx
  refine ⟨a', b', if path key = [a', b'] then v else w', hp, ?_, hc⟩
  rw [entry?_set hk hw hv, he]
  split <;> rfl

/-- **The last of the values** that are set for an entry stays. -/
theorem entry?_setAll : ∀ {settings : List (String × Value)} {c : Config}, c.Settable settings →
    (∀ x ∈ settings, path x.1 = path key → x.1 = key) → path key = [a, b] →
    entry? (c.setAll settings) a b = (settings.reverse.lookup key).or (c.entry? a b)
  | [], _, _, _, _ => rfl
  | (k, v) :: rest, c, h, hinj, hkey => by
    obtain ⟨a', b', w, hp, he, hv⟩ := h (k, v) List.mem_cons_self
    have hrest : c.Settable rest := fun x hx => h x (List.mem_cons_of_mem _ hx)
    have ih := entry?_setAll (hrest.set hp he hv) (fun x hx => hinj x (List.mem_cons_of_mem _ hx)) hkey
    show entry? ((c.set k v).1.setAll rest) a b = _
    rw [ih, entry?_set hp he hv, List.reverse_cons, List.lookup_append, Option.or_assoc]
    congr 1
    by_cases hk : k = key
    · subst hk
      simp [hkey]
    · have hne : path k ≠ [a, b] := fun e => hk (hinj (k, v) List.mem_cons_self (e.trans hkey.symm))
      simp [hne, List.lookup_cons, beq_eq_false_iff_ne.2 (Ne.symm hk)]

theorem entry?_setAll_of_ne : ∀ {settings : List (String × Value)} {c : Config}, c.Settable settings →
    (∀ x ∈ settings, path x.1 ≠ [a, b]) → entry? (c.setAll settings) a b = c.entry? a b
  | [], _, _, _ => rfl
  | (k, v) :: rest, c, h, hne => by
    obtain ⟨a', b', w, hp, he, hv⟩ := h (k, v) List.mem_cons_self
    have hrest : c.Settable rest := fun x hx => h x (List.mem_cons_of_mem _ hx)
    show entry? ((c.set k v).1.setAll rest) a b = _
    rw [entry?_setAll_of_ne (hrest.set hp he hv) fun x hx => hne x (List.mem_cons_of_mem _ hx),
      entry?_set hp he hv, if_neg (hne (k, v) List.mem_cons_self)]

/-! ## Reading -/

/-- The value is single and refers to nothing. -/
structure Plain (v : Value) : Prop where
  single : isContainer v = false
  resolved : ∀ root depth, resolve root (depth + 1) v = .ok v

theorem plain_null : Plain .null := ⟨rfl, fun _ _ => rfl⟩

theorem plain_int (n : Int) : Plain (.int n) := ⟨rfl, fun _ _ => rfl⟩

theorem plain_real (x : Float) : Plain (.real x) := ⟨rfl, fun _ _ => rfl⟩

theorem plain_text {s : String} (h : parts? s = some [.plain s.toList]) : Plain (.text s) := by
  refine ⟨rfl, fun root depth => ?_⟩
  simp only [resolve, h]
  show Except.ok (Value.text (String.ofList s.toList ++ "")) = _
  simp

/-- The opening of a reference. -/
def opening : List Char := ['$', '\x7b']

theorem partsFrom_of_free {cs : List Char} (h : ¬ opening <:+: cs) :
    partsFrom none cs = some (if cs = [] then [] else [.plain cs]) := by
  induction cs with
  | nil => rfl
  | cons c cs ih =>
    have hcs : ¬ opening <:+: cs := fun hc => h (hc.trans (List.suffix_cons c cs).isInfix)
    have hstep : partsFrom none (c :: cs) = (partsFrom none cs).map (Part.push c) := by
      rw [partsFrom]
      rintro ds rfl rfl
      exact h ⟨[], ds, rfl⟩
    rw [hstep, ih hcs]
    cases cs <;> rfl

/-- A text without the opening of a reference refers to nothing. -/
theorem plain_of_free {s : String} (h : ¬ opening <:+: s.toList) : Plain (.text s) := by
  by_cases hs : s.toList = []
  · refine ⟨rfl, fun root depth => ?_⟩
    obtain rfl : s = "" := String.toList_eq_nil_iff.1 hs
    rfl
  · refine plain_text ?_
    rw [parts?, partsFrom_of_free h, if_neg hs]

theorem plain_of_no_dollar {s : String} (h : '$' ∉ s.toList) : Plain (.text s) := by
  refine plain_of_free fun hin => h (hin.subset ?_)
  simp [opening]

/-- **An entry that refers to nothing** is read as it stands, or as the default if it is not set. -/
theorem get_eq (hk : path key = [a, b]) (hne : key.isEmpty = false) (h : c.entry? a b = some v)
    (hv : Plain v) (fallback : Value) : c.get key fallback = if isUnset v then fallback else v := by
  obtain ⟨es, ds, ht, hs, hb⟩ := entry?_eq_some_iff.1 h
  have hfollow : follow (resolve c.tree (depthBound c.tree)) c.tree [a, b] = .ok v := by
    simp [follow, ht, depthBound, resolve, child?, hs, hb, hv.resolved, bind, Except.bind]
  have hall : resolveAll c.tree (depthBound c.tree) (depthBound c.tree) v = .ok v := by
    have hr : resolve c.tree (depthBound c.tree) v = .ok v := hv.resolved c.tree (weight c.tree)
    unfold depthBound at hr ⊢
    rw [resolveAll, hr]
    cases v with
    | list vs => exact absurd hv.single (by simp [isContainer])
    | mapping es => exact absurd hv.single (by simp [isContainer])
    | _ => rfl
  unfold get
  simp only [hne, Bool.false_eq_true, if_false, hk, hfollow, hall]

end

/-! ## Settings over the defaults -/

/-- The keys of the settings that have a default. -/
def keys : List String :=
  ["solver.name", "solver.seed", "solver.initialization", "solver.max_iterations", "solver.timeout",
   "logging.level", "logging.file", "logging.format", "events.dir", "events.format",
   "benchmark.num_variables", "benchmark.clause_ratio", "benchmark.clause_size",
   "benchmark.instances", "benchmark.seeds", "benchmark.max_iterations"]

/-- The default of a setting. -/
def initial (key : String) : Value :=
  match path key with
  | [a, b] => defaults.entry? a b |>.getD .null
  | _ => .null

/-- What a value is read as where there is a fallback. -/
def reading (fallback v : Value) : Value := if isUnset v then fallback else v

/-- The value of a setting after settings have been laid over the defaults. -/
def settled (settings : List (String × Value)) (key : String) : Value :=
  (settings.reverse.lookup key).getD (initial key)

section
variable {key : String} {settings : List (String × Value)}

theorem mem_of_lookup {v : Value} (h : settings.reverse.lookup key = some v) : (key, v) ∈ settings := by
  obtain ⟨l₁, l₂, hlist, -⟩ := List.lookup_eq_some_iff.1 h
  rw [← List.mem_reverse, hlist]
  simp

theorem entry?_initial (h : key ∈ keys) :
    ∃ a b, path key = [a, b] ∧ defaults.entry? a b = some (initial key) := by
  simp only [keys, List.mem_cons, List.not_mem_nil, or_false] at h
  rcases h with rfl | rfl | rfl | rfl | rfl | rfl | rfl | rfl | rfl | rfl | rfl | rfl | rfl | rfl |
    rfl | rfl <;> exact ⟨_, _, rfl, rfl⟩

theorem plain_initial (h : key ∈ keys) : Plain (initial key) := by
  simp only [keys, List.mem_cons, List.not_mem_nil, or_false] at h
  rcases h with rfl | rfl | rfl | rfl | rfl | rfl | rfl | rfl | rfl | rfl | rfl | rfl | rfl | rfl |
    rfl | rfl <;>
    first
      | exact plain_null
      | exact plain_int _
      | exact plain_real _
      | exact plain_text rfl

/-- A key is told by its path. -/
theorem eq_of_path {k k' : String} (hk : k ∈ keys) (hk' : k' ∈ keys) (h : path k = path k') : k = k' := by
  have hjoin : ∀ k ∈ keys, String.intercalate "." (path k) = k := by decide +kernel
  rw [← hjoin k hk, ← hjoin k' hk', h]

/-- **A setting over the defaults** is read as its last value. -/
theorem get_setAll (hs : ∀ x ∈ settings, x.1 ∈ keys ∧ Plain x.2) (h : key ∈ keys) (fallback : Value) :
    (defaults.setAll settings).get key fallback = reading fallback (settled settings key) := by
  have hset : defaults.Settable settings := by
    intro x hx
    obtain ⟨a, b, hpath, hentry⟩ := entry?_initial (hs x hx).1
    exact ⟨a, b, _, hpath, hentry, (hs x hx).2.single⟩
  obtain ⟨a, b, hpath, hentry⟩ := entry?_initial h
  have hvalue : entry? (defaults.setAll settings) a b = some (settled settings key) := by
    rw [entry?_setAll hset (fun x hx hp => eq_of_path (hs x hx).1 h hp) hpath, hentry, settled]
    cases settings.reverse.lookup key <;> rfl
  have hplain : Plain (settled settings key) := by
    unfold settled
    cases hl : settings.reverse.lookup key with
    | none => exact plain_initial h
    | some v => exact (hs _ (mem_of_lookup hl)).2
  have hne : key.isEmpty = false := by
    have hkeys : ∀ k ∈ keys, k.isEmpty = false := by decide +kernel
    exact hkeys key h
  exact get_eq hpath hne hvalue hplain fallback

end

end LocalSat.Config
