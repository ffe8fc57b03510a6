import LocalSat.Proofs.Dimacs.RoundTrip
import LocalSat.Proofs.Json
import LocalSat.Proofs.RandomKSat

/-!
# Random instances

For `1 ≤ k ≤ n` there is an instance of any number of clauses, with any natural seed, if these numbers
can be printed: its comment names them, so no instance comes of numbers of too many digits
(`generate_long`). Drawn clauses make clauses of `k` literals over distinct variables (`Shaped`). The
generator is handed from clause to clause and nothing else is, so fewer clauses are the first of more
(`drawClauses_take`). The instances of a batch are those of the consecutive seeds, and an instance reads
back from its own text with its comment. Main statement: `instances_stable`.
-/

namespace LocalSat.RandomKSat

open LocalSat.Random LocalSat.Text

section
variable {n k m m' : Nat} {g : Generator}

/-- The first clauses do not depend on how many are drawn. -/
theorem drawClauses_take (h : m ≤ m') (g : Generator) :
    (drawClauses n k m g).1 = (drawClauses n k m' g).1.take m := by
  induction m generalizing m' g with
  | zero => simp [drawClauses]
  | succ m ih =>
    obtain ⟨m', rfl⟩ : ∃ d, m' = d + 1 := ⟨m' - 1, by omega⟩
    simp [drawClauses, ih (by omega : m ≤ m') (drawClause n k g).2]

/-! ## Instances -/

/-- `m` clauses of `k` literals over distinct variables of `n`. -/
structure Shaped (n m k : Nat) (f : Formula) : Prop where
  numVariables : f.numVariables = n
  size : f.size = m
  length : ∀ c ∈ f.clauses, c.literals.length = k
  nodup : ∀ c ∈ f.clauses, c.vars.Nodup
  range : ∀ c ∈ f.clauses, ∀ i ∈ c.vars, 0 ≤ i ∧ i < n

theorem nodup_vars {c : Clause} (h : Drawn n k c.toSigned) : c.vars.Nodup := by
  have hvars : c.toSigned.map Int.natAbs = c.vars.map fun i => (i + 1).natAbs := by
    simp only [Clause.toSigned, Clause.vars, List.map_map]
    refine List.map_congr_left fun l _ => ?_
    simp only [Function.comp, Literal.toSigned]
    split
    · exact Int.natAbs_neg _
    · rfl
  have hnodup := h.nodup
  rw [hvars] at hnodup
  exact List.Nodup.of_map _ hnodup

/-- What is made of drawn clauses has the shape. -/
theorem shaped_of_drawn {f : Formula} {lists : List (List Int)} (hn : f.numVariables = n)
    (hs : f.toSigned = lists) (hm : lists.length = m) (hd : ∀ vs ∈ lists, Drawn n k vs) :
    Shaped n m k f := by
  subst hs
  have hdrawn : ∀ c ∈ f.clauses, Drawn n k c.toSigned := fun c hc => hd _ (List.mem_map_of_mem hc)
  exact
  { numVariables := hn
    size := by rw [← f.length_toSigned, hm]
    length := by
      intro c hc
      rw [← (hdrawn c hc).length, Clause.toSigned, List.length_map]
    nodup := fun c hc => nodup_vars (hdrawn c hc)
    range := by
      intro c hc i hi
      obtain ⟨l, hl, rfl⟩ := List.mem_map.1 hi
      rw [← hn]
      exact f.inRange c hc l hl }

/-- The generator of a natural seed. -/
def seeded (s : Nat) : Generator := .ofWords (seedWords s)

theorem ofValue_seed (s : Nat) : Generator.ofValue (.int s) = .ok (seeded s) := by
  rw [Generator.ofValue_int, if_neg (by omega)]
  simp [seeded]

theorem draw_eq_ok (hk : 1 ≤ k) (h : k ≤ n) (m : Nat) (g : Generator) :
    draw n m k g = .ok (drawClauses n k m g).1 := by
  by_cases hm : m = 0
  · simp [draw, hm, drawClauses]
  · rw [draw_eq g (by omega), if_neg (by omega), if_neg (by omega)]
    simp

theorem named_iff (h : k ≤ n) (m s : Nat) :
    Named n m k (.int s) ↔ Printable n ∧ Printable m ∧ Printable s := by
  simp only [Named, Value.printable_int]
  refine ⟨fun ⟨⟨hn, hm, _⟩, hs⟩ => ⟨hn, hm, hs⟩, fun ⟨hn, hm, hs⟩ => ⟨⟨hn, hm, ?_⟩, hs⟩⟩
  exact hn.of_natAbs_le (by omega)

/-- **The instance of natural numbers** is the formula with the drawn integers and its comment. -/
theorem generate_eq_ok_iff (hk : 1 ≤ k) (h : k ≤ n) (m s : Nat) {f : Formula} :
    generate n m k (.int s) = .ok f ↔ (Printable n ∧ Printable m ∧ Printable s) ∧ f.numVariables = n ∧
      f.toSigned = (drawClauses n k m (seeded s)).1 ∧ f.comments = [comment n m k (.int s)] := by
  rw [generate_eq (ofValue_seed s), if_neg (by omega), draw_eq_ok hk h, ← Formula.build_eq_ok_iff,
    ← named_iff h]
  by_cases hp : Named n m k (.int s)
  · simp only [hp, if_true, true_and]
    cases Formula.build Clause.ofSigned n (drawClauses n k m (seeded s)).1 [comment n m k (.int s)] <;>
      simp [Except.mapError]
  · simp only [hp, if_false, false_and, reduceCtorEq]

/-- Numbers of too many digits have no instance. -/
theorem generate_long (hk : 1 ≤ k) (h : k ≤ n) {m s : Nat}
    (hp : ¬ (Printable n ∧ Printable m ∧ Printable s)) : generate n m k (.int s) = .error .tooLong := by
  rw [← named_iff h] at hp
  rw [generate_eq (ofValue_seed s), if_neg (by omega), draw_eq_ok hk h]
  simp only [hp, if_false]

theorem exists_generate (hk : 1 ≤ k) (h : k ≤ n) {m s : Nat} (hn : Printable n) (hm : Printable m)
    (hs : Printable s) : ∃ f, generate n m k (.int s) = .ok f ∧ Shaped n m k f := by
  obtain ⟨hlength, hdrawn⟩ := drawn_drawClauses h m (seeded s)
  have hfit : ∀ vs ∈ (drawClauses n k m (seeded s)).1,
      vs ≠ [] ∧ 0 ∉ vs ∧ ∀ v ∈ vs, v.natAbs ≤ n := by
    intro vs hvs
    have hd := hdrawn vs hvs
    refine ⟨?_, fun h0 => absurd (hd.pos 0 h0) (by simp), hd.le⟩
    rintro rfl
    have hlen := hd.length
    simp at hlen
    omega
  obtain ⟨cs, hcs, hrange⟩ := Formula.exists_clauses hfit
  refine ⟨⟨n, cs, [comment n m k (.int s)], hrange⟩, ?_, shaped_of_drawn rfl hcs hlength hdrawn⟩
  exact (generate_eq_ok_iff hk h m s).2 ⟨⟨hn, hm, hs⟩, rfl, hcs, rfl⟩

/-- Formulas with the same first integers have the same first clauses. -/
theorem clauses_eq_take {f f' : Formula} (h : f.toSigned = f'.toSigned.take m) :
    f.clauses = f'.clauses.take m := by
  have htake : (f'.toSigned.take m).mapM Clause.ofSigned = .ok (f'.clauses.take m) := by
    refine Clause.mapM_ofSigned_eq_ok_iff.2 ⟨by rw [Formula.toSigned, List.map_take], ?_⟩
    exact fun c hc l hl => (f'.inRange c (List.mem_of_mem_take hc) l hl).1
  rw [← h, f.mapM_toSigned] at htake
  exact Except.ok.inj htake

/-! ## Comments -/

theorem not_ends_of_visible {c : Char} (h : VisibleChar c) : LineEnds.boundary.ends c = false := by
  obtain ⟨h1, h2⟩ := h
  simp only [LineEnds.ends, Bool.or_eq_false_iff, Bool.and_eq_false_iff, decide_eq_false_iff_not,
    beq_eq_false_iff_ne]
  omega

theorem visible_comment (n m k s : Int) : Visible (comment n m k (.int s)) := by
  have hd : Visible (Value.display (.int s)) := visible_toString_int s
  unfold comment
  refine Visible.append (Visible.append (Visible.append (Visible.append (Visible.append (Visible.append
    (Visible.append ?_ ?_) ?_) ?_) ?_) ?_) ?_) hd
  all_goals first | exact visible_toString_int _ | decide

/-- A comment begins with a letter and ends with a digit. -/
theorem stripped_comment (n m k s : Int) : stripped (comment n m k (.int s)) = comment n m k (.int s) := by
  have hword : IsWord (toString s).toList := isWord_toString s
  have hstrip : strip (comment n m k (.int s)).toList = (comment n m k (.int s)).toList := by
    refine strip_of_ends (fun c hc => ?_) (fun c hc => ?_)
    · have hr : (comment n m k (.int s)).toList.head? = some 'r' := by
        simp [comment]
      rw [hr] at hc
      cases hc
      decide
    · have hlast : (comment n m k (.int s)).toList.getLast? = (toString s).toList.getLast? := by
        rw [comment, String.toList_append]
        exact List.getLast?_append_of_ne_nil _ hword.1
      rw [hlast] at hc
      exact hword.2 c (List.mem_of_getLast? hc)
  rw [stripped, hstrip, String.ofList_toList]

/-- An instance reads back from its own text. -/
theorem read_write_generate (hk : 1 ≤ k) (h : k ≤ n) {m s : Nat} {f : Formula}
    (hf : generate n m k (.int s) = .ok f) : Dimacs.read .boundary (Dimacs.write f none) = .ok f := by
  obtain ⟨⟨hn, hm, -⟩, hnum, hsigned, hcomments⟩ := (generate_eq_ok_iff hk h m s).1 hf
  have hsize : f.size = m := by
    rw [← f.length_toSigned, hsigned, (drawn_drawClauses h m (seeded s)).1]
  have hends : ∀ t ∈ f.comments, ∀ c ∈ t.toList, LineEnds.boundary.ends c = false := by
    intro t ht c hc
    rw [hcomments, List.mem_singleton] at ht
    subst ht
    exact not_ends_of_visible (visible_comment n m k s c hc)
  have hstripped : f.comments.map stripped = f.comments := by
    rw [hcomments, List.map_singleton, stripped_comment]
  have hread : Dimacs.read .boundary (Dimacs.write f none) =
      .ok { f with comments := f.comments.map stripped } :=
    Dimacs.ofLines_write (printable_natCast_iff.1 (hnum.symm ▸ hn))
      (printable_natCast_iff.1 (hsize.symm ▸ hm)) hends
  rw [hread, hstripped]

/-! ## Batches -/

theorem exists_batch (hk : 1 ≤ k) (h : k ≤ n) {m s : Nat} {count : Int} (hn : Printable n)
    (hm : Printable m) (hs : ∀ i : Nat, i < count → Printable (s + i : Nat)) :
    ∃ fs, batch n m k count (.int s) = .ok fs ∧ fs.length = count.toNat ∧
      ∀ (i : Nat) f, fs[i]? = some f → generate n m k (.int (s + i)) = .ok f := by
  have hgenerate : ∀ i < count.toNat, ∃ f, generate n m k (laterSeed (.int s) i) = .ok f := by
    intro i hi
    obtain ⟨f, hf, -⟩ := exists_generate hk h hn hm (hs i (by omega))
    exact ⟨f, hf⟩
  cases hb : batch n m k count (.int s) with
  | error e =>
    obtain ⟨i, hfirst, he⟩ := mapM_eq_error_iff.1 hb
    obtain ⟨f, hf⟩ := hgenerate i (List.mem_range.1 hfirst.mem)
    rw [hf] at he
    cases he
  | ok fs =>
    have hall := List.forall₂_iff_get.1 (mapM_eq_ok_iff.1 hb)
    obtain ⟨hlength, hget⟩ := hall
    rw [List.length_range] at hlength
    refine ⟨fs, rfl, hlength.symm, fun i f hi => ?_⟩
    obtain ⟨hlt, rfl⟩ := List.getElem?_eq_some_iff.1 hi
    have hi := hget i (by simp; omega) hlt
    simpa [laterSeed_int] using hi

end

/-- **Random instances** have the promised shape and are stable. For `1 ≤ k ≤ n` and a natural seed there
is an instance of any number of clauses, and it reads back from its text; the clauses of a smaller one are
the first of a larger one; and a batch has the instances of the seeds that follow one another. The numbers
must not have too many digits for the comment, which neither a number of things that fit into a memory
has nor a seed in use; there is no instance of those that have. -/
theorem instances_stable {n k : Nat} (hk : 1 ≤ k) (h : k ≤ n) (s : Nat) :
    (∀ m : Nat, Printable n ∧ Printable m ∧ Printable s → ∃ f, generate n m k (.int s) = .ok f ∧
      Shaped n m k f ∧ f.comments = [comment n m k (.int s)] ∧
      Dimacs.read .boundary (Dimacs.write f none) = .ok f) ∧
    (∀ m : Nat, ¬ (Printable n ∧ Printable m ∧ Printable s) →
      generate n m k (.int s) = .error .tooLong) ∧
    (∀ (m m' : Nat) f f', m ≤ m' → generate n m k (.int s) = .ok f →
      generate n m' k (.int s) = .ok f' → f.clauses = f'.clauses.take m) ∧
    ∀ (m : Nat) (count : Int), Printable n → Printable m →
      (∀ i : Nat, i < count → Printable (s + i : Nat)) →
      ∃ fs, batch n m k count (.int s) = .ok fs ∧ fs.length = count.toNat ∧
        ∀ (i : Nat) f, fs[i]? = some f → generate n m k (.int (s + i)) = .ok f := by
  refine ⟨fun m ⟨hn, hm, hs⟩ => ?_, fun m => generate_long hk h, fun m m' f f' hle hf hf' => ?_,
    fun m count => exists_batch hk h⟩
  · obtain ⟨f, hf, hshape⟩ := exists_generate hk h hn hm hs
    obtain ⟨-, -, -, hcomments⟩ := (generate_eq_ok_iff hk h m s).1 hf
    exact ⟨f, hf, hshape, hcomments, read_write_generate hk h hf⟩
  · obtain ⟨-, -, hsigned, -⟩ := (generate_eq_ok_iff hk h m s).1 hf
    obtain ⟨-, -, hsigned', -⟩ := (generate_eq_ok_iff hk h m' s).1 hf'
    refine clauses_eq_take ?_
    rw [hsigned, hsigned', drawClauses_take hle]

theorem instances_stable_five : ∃ f f' fs, generate 5 7 3 (.int 42) = .ok f ∧
    generate 5 9 3 (.int 42) = .ok f' ∧ batch 5 7 3 2 (.int 41) = .ok fs ∧ Shaped 5 7 3 f ∧
    f.clauses = f'.clauses.take 7 ∧ fs[1]? = some f ∧
    Dimacs.read .boundary (Dimacs.write f none) = .ok f := by
  have small : ∀ i : Nat, i ≤ 99 → Printable i := fun i hi =>
    (by decide +kernel : Printable 99).of_natAbs_le (by simpa using hi)
  have h5 := small 5 (by decide)
  have h7 := small 7 (by decide)
  have h42 := small 42 (by decide)
  obtain ⟨hexists, -, htake, -⟩ := instances_stable (n := 5) (k := 3) (by decide) (by decide) 42
  obtain ⟨-, -, -, hbatch⟩ := instances_stable (n := 5) (k := 3) (by decide) (by decide) 41
  obtain ⟨f, hf, hshape, -, hread⟩ := hexists 7 ⟨h5, h7, h42⟩
  obtain ⟨f', hf', -⟩ := hexists 9 ⟨h5, small 9 (by decide), h42⟩
  obtain ⟨fs, hfs, hlength, hnth⟩ := hbatch 7 2 h5 h7 fun i hi => small _ (by omega)
  have hlt : 1 < fs.length := by
    rw [hlength]
    decide
  have hsecond := hnth 1 _ (List.getElem?_eq_getElem hlt)
  refine ⟨f, f', fs, hf, hf', hfs, hshape, htake 7 9 f f' (by decide) hf hf', ?_, hread⟩
  rw [List.getElem?_eq_getElem hlt]
  exact congrArg some (Except.ok.inj (hsecond.symm.trans hf))

/-- A seed of too many digits has no instance, not even of no clauses. -/
theorem generate_long_seed : generate 1 0 1 (.int beyondDigits) = .error .tooLong :=
  generate_long (n := 1) (k := 1) (m := 0) (Nat.le_refl 1) (Nat.le_refl 1)
    fun hp => not_printable_beyondDigits hp.2.2

end LocalSat.RandomKSat
