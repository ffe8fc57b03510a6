import LocalSat.Proofs.Config

/-!
# What stands in a tree of settings

`at?` steps down a path. In a tree that is `Clear` - mappings all the way down to single values that
refer to nothing - laying a `Layer` of settings over it never meets a conflict, and two equations say what
stands under a key afterwards: `child?_merge` for `merge` and `child?_withChild` for `put`. By induction
on the path, a merge puts the layer's leaves where the layer has them (`at?_merge_leaf`) and leaves alone
every path that is apart from them (`at?_merge_apart`); `put` merges at one path and leaves alone every
path apart from it (`put_spec`).
-/

namespace LocalSat.Config

/-! ## Paths -/

/-- The value at a path. -/
def at? : Value → List String → Option Value
  | v, [] => some v
  | v, k :: ks => (child? v k).bind (at? · ks)

/-- Neither path leads on from the other. -/
def Apart (p q : List String) : Prop := ¬ p <+: q ∧ ¬ q <+: p

instance (p q : List String) : Decidable (Apart p q) := inferInstanceAs (Decidable (_ ∧ _))

section
variable {p q ks : List String} {k : String} {v w : Value}

theorem Apart.symm (h : Apart p q) : Apart q p := ⟨h.2, h.1⟩

theorem apart_cons_iff {k' : String} {ks' : List String} :
    Apart (k :: ks) (k' :: ks') ↔ k = k' → Apart ks ks' := by
  simp only [Apart, List.cons_prefix_cons]
  constructor
  · rintro ⟨h, h'⟩ rfl
    exact ⟨fun hp => h ⟨rfl, hp⟩, fun hp => h' ⟨rfl, hp⟩⟩
  · intro h
    exact ⟨fun ⟨hk, hp⟩ => (h hk).1 hp, fun ⟨hk, hp⟩ => (h hk.symm).2 hp⟩

theorem not_apart_nil : ¬ Apart [] q := fun h => h.1 List.nil_prefix

theorem Apart.ne_nil (h : Apart p q) : q ≠ [] := by
  rintro rfl
  exact not_apart_nil h.symm

theorem child?_of_single (h : isContainer v = false) (k : String) : child? v k = none := by
  cases v with
  | list vs => cases h
  | mapping es => cases h
  | _ => rfl

theorem at?_of_single (h : isContainer v = false) : at? v p = some w ↔ p = [] ∧ w = v := by
  cases p with
  | nil => simp [at?, eq_comm]
  | cons k ks => simp [at?, child?_of_single h]

/-! ## Clear trees -/

/-- Mappings all the way down to single values that refer to nothing. -/
inductive Clear : Value → Prop
  | plain {v : Value} (h : Plain v) : Clear v
  | mapping {es : List (String × Value)} (h : ∀ x ∈ es, Clear x.2) : Clear (.mapping es)

/-- A single value that refers to nothing and does not wait to be given. -/
inductive Leaf : Value → Prop
  | null : Leaf .null
  | bool (b : Bool) : Leaf (.bool b)
  | int (n : Int) : Leaf (.int n)
  | real (x : Float) : Leaf (.real x)
  | text {s : String} (free : ¬ opening <:+: s.toList) (given : s ≠ toBeGiven) : Leaf (.text s)

/-- Whether a character is a letter; the characters beyond the ASCII range count as letters. -/
def isLetter (c : Char) : Bool := c.isAlpha || decide (128 ≤ c.toNat)

/-- Whether a key reads as a name: a letter, and then letters, digits and underscores. -/
def isName (k : String) : Bool :=
  k.toList.head?.any isLetter && k.toList.all fun c => isLetter c || c.isDigit || c == '_'

/-- What is laid over a tree: a leaf, or a mapping of names to further layers that is not empty. -/
inductive Layer : Value → Prop
  | leaf {v : Value} (h : Leaf v) : Layer v
  | mapping {es : List (String × Value)} (nonempty : es ≠ []) (distinct : (es.map Prod.fst).Nodup)
      (names : ∀ x ∈ es, isName x.1 = true) (entries : ∀ x ∈ es, Layer x.2) : Layer (.mapping es)

theorem Leaf.plain (h : Leaf v) : Plain v := by
  cases h with
  | text free given => exact plain_of_free free
  | _ => exact ⟨rfl, fun _ _ => rfl⟩

theorem Leaf.isUnset (h : Leaf v) (hv : v ≠ .null) : isUnset v = false := by
  cases h with
  | null => exact absurd rfl hv
  | text free given => simpa [Config.isUnset] using given
  | _ => rfl

theorem Layer.clear (h : Layer v) : Clear v := by
  induction h with
  | leaf h => exact .plain h.plain
  | mapping nonempty distinct names entries ih => exact .mapping ih

theorem Layer.single_leaf (h : Layer v) (hv : isContainer v = false) : Leaf v := by
  cases h with
  | leaf h => exact h
  | mapping _ _ _ _ => cases hv

theorem lookup?_mem {es : List (String × Value)} (h : Value.lookup? k es = some v) : (k, v) ∈ es := by
  induction es with
  | nil => cases h
  | cons x es ih =>
    unfold Value.lookup? at h
    by_cases hk : x.1 = k
    · rw [if_pos hk] at h
      cases h
      exact hk ▸ List.mem_cons_self
    · rw [if_neg hk] at h
      exact List.mem_cons_of_mem x (ih h)

theorem lookup?_eq_none {es : List (String × Value)} (h : k ∉ es.map Prod.fst) :
    Value.lookup? k es = none := by
  cases hl : Value.lookup? k es with
  | none => rfl
  | some v => exact absurd (List.mem_map_of_mem (lookup?_mem hl)) h

theorem mem_insert {es : List (String × Value)} {x : String × Value} (h : x ∈ Value.insert k w es) :
    x = (k, w) ∨ x ∈ es := by
  induction es with
  | nil => exact Or.inl (List.mem_singleton.1 h)
  | cons y es ih =>
    unfold Value.insert at h
    by_cases hk : y.1 = k
    · rw [if_pos hk, hk] at h
      rcases List.mem_cons.1 h with h | h
      · exact Or.inl h
      · exact Or.inr (List.mem_cons_of_mem y h)
    · rw [if_neg hk] at h
      rcases List.mem_cons.1 h with h | h
      · exact Or.inr (h ▸ List.mem_cons_self)
      · exact (ih h).imp_right (List.mem_cons_of_mem y)

theorem Clear.insert {es : List (String × Value)} (h : ∀ x ∈ es, Clear x.2) (hw : Clear w) :
    ∀ x ∈ Value.insert k w es, Clear x.2 := by
  intro x hx
  rcases mem_insert hx with rfl | hx
  · exact hw
  · exact h x hx

theorem Clear.child? (h : Clear v) (hw : child? v k = some w) : Clear w := by
  cases h with
  | plain h =>
    rw [child?_of_single h.single] at hw
    cases hw
  | mapping h => exact h _ (lookup?_mem hw)

theorem Clear.at? (h : Clear v) (hw : at? v p = some w) : Clear w := by
  induction p generalizing v with
  | nil =>
    cases hw
    exact h
  | cons k ks ih =>
    obtain ⟨u, hu, huw⟩ := Option.bind_eq_some_iff.1 hw
    exact ih (h.child? hu) huw

/-- What stands in a clear tree is a single value or a mapping. -/
theorem Clear.cases_mapping (h : Clear v) :
    isContainer v = false ∨ ∃ es, v = .mapping es ∧ ∀ x ∈ es, Clear x.2 := by
  cases h with
  | plain h => exact Or.inl h.single
  | mapping h => exact Or.inr ⟨_, rfl, h⟩

end

/-! ## Merging -/

section
variable {there : Option Value} {v : Value}

theorem merge_leaf (h : isContainer v = false) (there : Option Value) : merge there v = (v, true) := by
  cases v with
  | list vs => cases h
  | mapping es => cases h
  | _ => rw [merge] <;> simp

theorem merge_absent (there : Option Value) {es : List (String × Value)}
    (h : ∀ w, there = some w → isContainer w = false) :
    merge there (.mapping es) = (.mapping es, true) := by
  rcases there with _ | w
  · rw [merge] <;> simp
  · have hw := h w rfl
    cases w with
    | list vs => cases hw
    | mapping ds => cases hw
    | _ => rw [merge] <;> simp

/-- A layer replaces what is there, unless both are mappings. -/
theorem merge_replaces (hv : Layer v) (there : Option Value)
    (h : isContainer v = true → ∀ w, there = some w → isContainer w = false) :
    merge there v = (v, true) := by
  cases hv with
  | leaf hl => exact merge_leaf hl.plain.single there
  | mapping _ _ _ _ => exact merge_absent there (h rfl)

/-- A layer meets nothing that it could be merged with, or a mapping. -/
theorem absent_or_mapping (ht : ∀ w, there = some w → Clear w) :
    (∀ w, there = some w → isContainer w = false) ∨
      ∃ ds, there = some (.mapping ds) ∧ ∀ x ∈ ds, Clear x.2 := by
  rcases there with _ | t
  · exact Or.inl (by simp)
  · rcases (ht t rfl).cases_mapping with hs | ⟨ds, rfl, hds⟩
    · exact Or.inl (by simpa using hs)
    · exact Or.inr ⟨ds, rfl, hds⟩

theorem mergeEntries_spec {es : List (String × Value)} (hd : (es.map Prod.fst).Nodup)
    (hm : ∀ x ∈ es, ∀ there, (∀ w, there = some w → Clear w) →
      ∃ w, merge there x.2 = (w, true) ∧ Clear w) {ds : List (String × Value)}
    (hc : ∀ x ∈ ds, Clear x.2) :
    ∃ fs, mergeEntries ds es = (fs, true) ∧ (∀ x ∈ fs, Clear x.2) ∧
      ∀ k, Value.lookup? k fs = match Value.lookup? k es with
        | some v => some (merge (Value.lookup? k ds) v).1
        | none => Value.lookup? k ds := by
  induction es generalizing ds with
  | nil => exact ⟨ds, by rw [mergeEntries], hc, fun k => rfl⟩
  | cons x es ih =>
    obtain ⟨k, v⟩ := x
    rw [List.map_cons, List.nodup_cons] at hd
    obtain ⟨w, hw, hwc⟩ := hm (k, v) List.mem_cons_self (Value.lookup? k ds)
      fun u hu => hc _ (lookup?_mem hu)
    obtain ⟨fs, hfs, hfc, hlook⟩ := ih hd.2 (fun y hy => hm y (List.mem_cons_of_mem _ hy))
      (Clear.insert (k := k) hc hwc)
    refine ⟨fs, ?_, hfc, fun j => ?_⟩
    · rw [mergeEntries]
      simp only at hw
      simp only [hw, if_true, hfs]
    · rw [hlook j]
      by_cases hj : j = k
      -- no later entry has this key, so what was merged under it stays
      · subst hj
        simp only at hw
        rw [lookup?_eq_none hd.1]
        simp [Value.lookup?, Value.lookup?_insert_self, hw]
      · have hj' : k ≠ j := Ne.symm hj
        simp [Value.lookup?, hj', Value.lookup?_insert_of_ne w hj]

/-- **A layer is laid over a clear tree** without a conflict, and the tree stays clear. -/
theorem merge_clear (hv : Layer v) (there : Option Value) (ht : ∀ w, there = some w → Clear w) :
    ∃ w, merge there v = (w, true) ∧ Clear w := by
  induction hv generalizing there with
  | leaf h => exact ⟨_, merge_leaf h.plain.single there, .plain h.plain⟩
  | mapping nonempty distinct names entries ih =>
    rcases absent_or_mapping ht with habsent | ⟨ds, rfl, hds⟩
    · exact ⟨_, merge_absent there habsent, (Layer.mapping nonempty distinct names entries).clear⟩
    · obtain ⟨fs, hfs, hfc, -⟩ := mergeEntries_spec distinct (fun x hx there h => ih x hx there h) hds
      exact ⟨.mapping fs, by rw [merge]; simp [hfs], .mapping hfc⟩

/-- What stands under a key after a merge of mappings. -/
theorem child?_merge {es : List (String × Value)} (hv : Layer (.mapping es))
    (ht : ∀ w, there = some w → Clear w) (k : String) :
    child? (merge there (.mapping es)).1 k = match Value.lookup? k es with
      | some v => some (merge (there.bind (child? · k)) v).1
      | none => there.bind (child? · k) := by
  cases hv with
  | leaf h => exact absurd h.plain.single (by simp [isContainer])
  | mapping nonempty distinct names entries =>
    rcases absent_or_mapping ht with habsent | ⟨ds, rfl, hds⟩
    · have hnone : there.bind (child? · k) = none := by
        rcases there with _ | t
        · rfl
        · exact child?_of_single (habsent t rfl) k
      rw [merge_absent there habsent, hnone]
      show Value.lookup? k es = _
      cases hl : Value.lookup? k es with
      | none => rfl
      | some v => simp [merge_replaces (entries _ (lookup?_mem hl)) none]
    · obtain ⟨fs, hfs, -, hlook⟩ :=
        mergeEntries_spec distinct (fun x hx => merge_clear (entries x hx)) hds
      rw [merge]
      simp only [hfs]
      exact hlook k

theorem clear_child? (ht : ∀ w, there = some w → Clear w) (k : String) :
    ∀ w, there.bind (child? · k) = some w → Clear w := by
  intro w hw
  obtain ⟨t, rfl, hw⟩ := Option.bind_eq_some_iff.1 hw
  exact (ht t rfl).child? hw

/-- **A leaf of the layer** stands in the merged tree where the layer has it. -/
theorem at?_merge_leaf {q : List String} {w : Value} (hv : Layer v)
    (ht : ∀ u, there = some u → Clear u) (hw : at? v q = some w) (hs : isContainer w = false) :
    at? (merge there v).1 q = some w := by
  induction q generalizing there v with
  | nil =>
    cases hw
    rw [merge_leaf hs]
    rfl
  | cons k ks ih =>
    cases hv with
    | leaf h => simp [at?, child?_of_single h.plain.single] at hw
    | @mapping es nonempty distinct names entries =>
      obtain ⟨u, hu, huw⟩ := Option.bind_eq_some_iff.1 hw
      have hlook : Value.lookup? k es = some u := hu
      rw [at?, child?_merge (.mapping nonempty distinct names entries) ht, hlook]
      exact ih (entries _ (lookup?_mem hlook)) (clear_child? ht k) huw

/-- Every layer has a leaf. -/
theorem Layer.exists_leaf (hv : Layer v) : ∃ q w, at? v q = some w ∧ isContainer w = false := by
  induction hv with
  | leaf h => exact ⟨[], _, rfl, h.plain.single⟩
  | @mapping es nonempty distinct names entries ih =>
    cases es with
    | nil => exact absurd rfl nonempty
    | cons x es =>
      obtain ⟨q, w, hq, hw⟩ := ih x List.mem_cons_self
      refine ⟨x.1 :: q, w, ?_, hw⟩
      simp [at?, child?, Value.lookup?, hq]

/-- **A path apart from the leaves of the layer** leads in the merged tree to what it led to. -/
theorem at?_merge_apart {q : List String} (hv : Layer v) (ht : ∀ u, there = some u → Clear u)
    (hq : ∀ r w, at? v r = some w → isContainer w = false → Apart r q) :
    at? (merge there v).1 q = there.bind (at? · q) := by
  induction q generalizing there v with
  | nil =>
    obtain ⟨r, w, hr, hw⟩ := hv.exists_leaf
    exact absurd (hq r w hr hw).symm not_apart_nil
  | cons k ks ih =>
    cases hv with
    | leaf h => exact absurd (hq [] v rfl h.plain.single) not_apart_nil
    | @mapping es nonempty distinct names entries =>
      have hbelow : there.bind (at? · (k :: ks)) = (there.bind (child? · k)).bind (at? · ks) := by
        cases there <;> rfl
      rw [at?, child?_merge (.mapping nonempty distinct names entries) ht, hbelow]
      cases hl : Value.lookup? k es with
      | none => rfl
      | some u =>
        -- the path is as much apart from the leaves below the key as it is from those of the layer
        refine ih (entries _ (lookup?_mem hl)) (clear_child? ht k) fun r w hr hw => ?_
        have happart := hq (k :: r) w (by simp [at?, child?, hl, hr]) hw
        exact apart_cons_iff.1 happart rfl

/-! ## Putting -/

variable {tree w : Value} {k : String}

theorem child?_withChild (h : Clear tree) (k : String) (w : Value) (j : String) :
    child? (withChild tree k w) j = if j = k then some w else child? tree j := by
  have hsingle : ∀ es : List (String × Value),
      child? (.mapping (Value.insert k w es)) j = if j = k then some w else Value.lookup? j es := by
    intro es
    show Value.lookup? j (Value.insert k w es) = _
    by_cases hj : j = k
    · rw [hj, Value.lookup?_insert_self, if_pos rfl]
    · rw [Value.lookup?_insert_of_ne w hj, if_neg hj]
  rcases h.cases_mapping with hs | ⟨es, rfl, -⟩
  · rw [child?_of_single hs, show none = Value.lookup? j [] from rfl, ← hsingle []]
    cases tree with
    | list vs => cases hs
    | mapping es => cases hs
    | _ => rfl
  · exact hsingle es

theorem Clear.withChild (h : Clear tree) (hw : Clear w) : Clear (withChild tree k w) := by
  have hone : Clear (.mapping [(k, w)]) := .mapping (by simpa using hw)
  rcases h.cases_mapping with hs | ⟨es, rfl, hes⟩
  · cases tree with
    | list vs => cases hs
    | mapping es => cases hs
    | _ => exact hone
  · exact .mapping (Clear.insert hes hw)

/-- Where `put` goes on under a key: at the container that is there, or at a new mapping. -/
def below (tree : Value) (k : String) : Value :=
  ((child? tree k).filter isContainer).getD (.mapping [])

theorem below_cases (tree : Value) (k : String) :
    (∃ u, child? tree k = some u ∧ below tree k = u) ∨
      ((∀ u, child? tree k = some u → isContainer u = false) ∧ below tree k = .mapping []) := by
  unfold below
  cases hc : child? tree k with
  | none => exact Or.inr ⟨by simp, rfl⟩
  | some u =>
    by_cases hu : isContainer u = true
    · exact Or.inl ⟨u, rfl, by rw [Option.filter_some, if_pos hu]; rfl⟩
    · exact Or.inr ⟨by simpa using hu, by rw [Option.filter_some, if_neg hu]; rfl⟩

theorem clear_below (h : Clear tree) (k : String) : Clear (below tree k) := by
  rcases below_cases tree k with ⟨u, hu, hb⟩ | ⟨-, hb⟩
  · rw [hb]
    exact h.child? hu
  · rw [hb]
    exact .mapping (by simp)

theorem at?_below {ks : List String} (tree : Value) (k : String) (hks : ks ≠ []) :
    at? (below tree k) ks = (child? tree k).bind (at? · ks) := by
  rcases below_cases tree k with ⟨u, hu, hb⟩ | ⟨hnot, hb⟩
  · rw [hb, hu, Option.bind_some]
  · obtain ⟨j, js, rfl⟩ := List.exists_cons_of_ne_nil hks
    rw [hb]
    cases hu : child? tree k with
    | none => rfl
    | some u =>
      have hnone : at? u (j :: js) = none := by
        rw [at?, child?_of_single (hnot u hu)]
        rfl
      rw [Option.bind_some, hnone]
      rfl

theorem put_singleton (hv : Layer v) (ht : Clear tree) (k : String) :
    put v [k] tree = (withChild tree k (merge (child? tree k) v).1, true) := by
  rw [put]
  cases hc : child? tree k with
  | none => simp [merge_replaces hv none (by simp)]
  | some u =>
    by_cases hboth : isContainer v = true ∧ isContainer u = true
    · obtain ⟨w, hw, -⟩ := merge_clear hv (some u) fun x hx => by
        cases hx
        exact ht.child? hc
      simp [hboth.1, hboth.2, hw]
    · have hmerge : merge (some u) v = (v, true) := by
        refine merge_replaces hv (some u) fun hvc x hx => ?_
        cases hx
        simpa using fun hu => hboth ⟨hvc, hu⟩
      have hflag : (isContainer v && isContainer u) = false := by
        simpa using fun hvc => by simpa using fun hu => hboth ⟨hvc, hu⟩
      simp [hflag, hmerge]

/-- **A layer put at a path** of a clear tree is merged with what stands there, without a conflict, and
every path apart from it leads to what it led to. -/
theorem put_spec (hv : Layer v) : ∀ {p : List String} {tree : Value}, Clear tree → p ≠ [] →
    ∃ t, put v p tree = (t, true) ∧ Clear t ∧ at? t p = some (merge (at? tree p) v).1 ∧
      ∀ q, Apart p q → at? t q = at? tree q
  | [k], tree, ht, _ => by
    obtain ⟨w, hw, hwc⟩ := merge_clear hv (child? tree k) fun x hx => ht.child? hx
    have hat : at? tree [k] = child? tree k := by
      cases hc : child? tree k <;> simp [at?, hc]
    refine ⟨_, put_singleton hv ht k, ht.withChild (by rw [hw]; exact hwc), ?_, fun q hq => ?_⟩
    · simp [at?, child?_withChild ht]
    · obtain ⟨j, js, rfl⟩ := List.exists_cons_of_ne_nil hq.ne_nil
      have hj : j ≠ k := fun e => not_apart_nil (apart_cons_iff.1 hq e.symm)
      rw [at?, at?, child?_withChild ht, if_neg hj]
  | k :: k' :: ks, tree, ht, _ => by
    obtain ⟨t, hput, htc, hat, hframe⟩ := put_spec hv (clear_below ht k) (List.cons_ne_nil k' ks)
    have hstep : put v (k :: k' :: ks) tree = (withChild tree k t, true) := by
      rw [put, show ((child? tree k).filter isContainer).getD (.mapping []) = below tree k from rfl, hput]
      simp
    refine ⟨_, hstep, ht.withChild htc, ?_, fun q hq => ?_⟩
    · rw [at?, child?_withChild ht, if_pos rfl, Option.bind_some, hat,
        at?_below tree k (List.cons_ne_nil k' ks)]
      rfl
    · obtain ⟨j, js, rfl⟩ := List.exists_cons_of_ne_nil hq.ne_nil
      rw [at?, at?, child?_withChild ht]
      by_cases hj : j = k
      · subst hj
        have hjs := apart_cons_iff.1 hq rfl
        rw [if_pos rfl, Option.bind_some, hframe js hjs, at?_below tree j hjs.ne_nil]
      · rw [if_neg hj]

end

end LocalSat.Config
