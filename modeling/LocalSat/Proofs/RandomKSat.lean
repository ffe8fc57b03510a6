import Mathlib.Data.List.Nodup
import LocalSat.Proofs.Random.Sample
import LocalSat.Proofs.Signed
import LocalSat.RandomKSat

/-!
# Numbers that no random instance has

A drawn clause is a sample of variables with signs on them, so it has `k` integers of distinct sizes from
1 to `n` (`Drawn`), and nothing can be wrong with it but that it is empty. So a random instance, if its
numbers and its seed can be printed, is refused because of its three numbers in one of four ways
(`Refused`), whatever the seed (`generate_of_refused`), or because its clauses are empty
(`refused_of_generate`). The numbers are the same for all instances of a batch, so a batch with an
instance in it is refused with its first.
-/

namespace LocalSat.RandomKSat

open LocalSat.Random LocalSat.Text

/-! ## Drawn clauses -/

/-- `k` integers whose sizes are distinct and lie between 1 and `n`. -/
structure Drawn (n k : Nat) (vs : List Int) : Prop where
  length : vs.length = k
  nodup : (vs.map Int.natAbs).Nodup
  pos : ∀ v ∈ vs, 0 < v.natAbs
  le : ∀ v ∈ vs, v.natAbs ≤ n

section
variable {n k m m' : Nat} {g : Generator}

theorem natAbs_signed : ∀ {vars : List Nat} {coins : List Bool}, vars.length = coins.length →
    (signed vars coins).map Int.natAbs = vars.map (· + 1)
  | [], _, _ => rfl
  | v :: vars, b :: coins, h => by
    have hlength : vars.length = coins.length := by simpa using h
    have ih := natAbs_signed hlength
    have hb : (if b then (v : Int) + 1 else -((v : Int) + 1)).natAbs = v + 1 := by
      cases b <;> simp <;> omega
    simp only [signed, List.zipWith_cons_cons, List.map_cons, hb]
    rw [← ih]
    rfl

theorem drawClause_eq (n k : Nat) (g : Generator) : (drawClause n k g).1 =
    signed (sample n k g).1 (Generator.coins k (sample n k g).2).1 := rfl

theorem drawn_drawClause (h : k ≤ n) (g : Generator) : Drawn n k (drawClause n k g).1 := by
  have hs := distinct_sample h g
  have hcoins := Generator.length_coins k (sample n k g).2
  have habs : (drawClause n k g).1.map Int.natAbs = (sample n k g).1.map (· + 1) := by
    rw [drawClause_eq, natAbs_signed (hs.length.trans hcoins.symm)]
  have hmem : ∀ v ∈ (drawClause n k g).1, ∃ i < n, v.natAbs = i + 1 := by
    intro v hv
    have hv' : v.natAbs ∈ (sample n k g).1.map (· + 1) := habs ▸ List.mem_map_of_mem hv
    obtain ⟨i, hi, he⟩ := List.mem_map.1 hv'
    exact ⟨i, hs.lt i hi, he.symm⟩
  exact
  { length := by
      have hlength := congrArg List.length habs
      rwa [List.length_map, List.length_map, hs.length] at hlength
    nodup := by
      rw [habs]
      exact hs.nodup.map fun i j hij => Nat.succ.inj hij
    pos := by
      intro v hv
      obtain ⟨i, -, hi⟩ := hmem v hv
      omega
    le := by
      intro v hv
      obtain ⟨i, hi, he⟩ := hmem v hv
      omega }

theorem drawn_drawClauses (h : k ≤ n) : ∀ (m : Nat) (g : Generator),
    (drawClauses n k m g).1.length = m ∧ ∀ vs ∈ (drawClauses n k m g).1, Drawn n k vs
  | 0, _ => ⟨rfl, by simp [drawClauses]⟩
  | m + 1, g => by
    obtain ⟨hlength, hdrawn⟩ := drawn_drawClauses h m (drawClause n k g).2
    simp only [drawClauses, List.length_cons, hlength, List.forall_mem_cons, true_and]
    exact ⟨drawn_drawClause h g, hdrawn⟩

end

/-! ## Refused instances -/

/-- There is no instance of `m` clauses of `k` literals over `n` variables, for this reason. -/
inductive Refused (n m k : Int) : Error → Prop
  | clauseSize (wide : n < k) : Refused n m k (.clauseSize k n)
  | emptyPool (fits : k ≤ n) (clauses : 0 < m) (pool : n ≤ 0) (draws : k ≠ 0) :
      Refused n m k (.random .emptyPool)
  | negativeSize (fits : k ≤ n) (clauses : 0 < m) (pool : 0 < n) (draws : k < 0) :
      Refused n m k (.random .negativeSize)
  | negativeCount (fits : k ≤ n) (clauses : m ≤ 0) (negative : n < 0) :
      Refused n m k (.formula (.negativeCount n))

section
variable {n m k count s : Int} {seed : Value} {g : Generator} {e : Error}

/-- With a seed that yields a generator, an instance is drawn, named in its comment and built. -/
theorem generate_eq (hseed : Generator.ofValue seed = .ok g) : generate n m k seed =
    if n < k then .error (.ofSizes k n)
    else match draw n m k g with
      | .error e => .error (.random e)
      | .ok lists =>
        if Named n m k seed then
          (Formula.build Clause.ofSigned n lists [comment n m k seed]).mapError Error.formula
        else .error .tooLong := by
  have hnull : seed ≠ .null := by
    rintro rfl
    cases hseed
  unfold generate
  by_cases hk : n < k
  · simp only [if_pos hk]
    rfl
  · simp only [if_neg hk]
    cases seed with
    | null => exact absurd rfl hnull
    | _ =>
      simp only [Bool.false_eq_true, if_false, hseed]
      show ((draw n m k g).mapError Error.random >>= fun lists => _) = _
      cases draw n m k g with
      | error e => rfl
      | ok lists =>
        simp only [ite_not]
        split <;> rfl

/-- The reason not to draw clauses is the same whatever the generator. -/
theorem draw_eq (g : Generator) (hm : 0 < m) : draw n m k g =
    if n ≤ 0 ∧ k ≠ 0 then .error .emptyPool
    else if k < 0 then .error .negativeSize
    else .ok (drawClauses n.toNat k.toNat m.toNat g).1 := by
  rw [draw, if_neg (by omega)]

theorem generate_of_refused (hseed : Generator.ofValue seed = .ok g) (hp : Named n m k seed)
    (h : Refused n m k e) : generate n m k seed = .error e := by
  obtain ⟨hn', -, hk'⟩ := hp.1
  rw [generate_eq hseed]
  cases h with
  | clauseSize hw => rw [if_pos hw, Error.ofSizes, if_pos ⟨hk', hn'⟩]
  | emptyPool hf hm hn hk => rw [if_neg (by omega), draw_eq g hm, if_pos ⟨hn, hk⟩]
  | negativeSize hf hm hn hk =>
    rw [if_neg (by omega), draw_eq g hm, if_neg (by omega), if_pos hk]
  | negativeCount hf hm hn =>
    rw [if_neg (by omega), draw, if_pos hm]
    simp only [if_pos hp, Formula.build_of_negative hn, FormulaError.ofNegative, if_pos hn']
    rfl

/-- The numbers for which no clause is drawn. -/
theorem refused_of_draw {re : Random.Error} (hf : k ≤ n) (h : draw n m k g = .error re) :
    Refused n m k (.random re) := by
  by_cases hm : 0 < m
  · rw [draw_eq g hm] at h
    by_cases hp : n ≤ 0 ∧ k ≠ 0
    · rw [if_pos hp] at h
      cases h
      exact .emptyPool hf hm hp.1 hp.2
    · rw [if_neg hp] at h
      by_cases hk : k < 0
      · rw [if_pos hk] at h
        cases h
        exact .negativeSize hf hm (by omega) hk
      · rw [if_neg hk] at h
        cases h
  · rw [draw, if_pos (by omega)] at h
    cases h

/-- A negative number of variables leaves nothing to draw from. -/
theorem le_zero_of_draw {lists : List (List Int)} (hf : k ≤ n) (hn : n < 0)
    (h : draw n m k g = .ok lists) : m ≤ 0 := by
  by_cases hm : 0 < m
  · rw [draw_eq g hm, if_pos ⟨by omega, by omega⟩] at h
    cases h
  · omega

theorem drawn_of_draw {lists : List (List Int)} (hf : k ≤ n) (h : draw n m k g = .ok lists) :
    ∀ vs ∈ lists, Drawn n.toNat k.toNat vs := by
  unfold draw at h
  split at h
  · cases h
    simp
  split at h
  · cases h
  split at h
  · cases h
  cases h
  exact (drawn_drawClauses (by omega) m.toNat g).2

/-- Nothing can be wrong with drawn clauses but that they are empty. -/
theorem empty_of_build {n k : Nat} {lists : List (List Int)} {comments : List String} {fe : FormulaError}
    (hd : ∀ vs ∈ lists, Drawn n k vs) (h : Formula.build Clause.ofSigned n lists comments = .error fe) :
    fe = .clause .empty := by
  obtain ⟨ce, hce, rfl⟩ | ⟨cs, l, c, hcs, hstray, -⟩ := Formula.build_error h
  · obtain ⟨vs, hfirst, hvs⟩ := mapM_eq_error_iff.1 hce
    cases Clause.ofSigned_eq_error_iff.1 hvs with
    | empty => rfl
    | zero h0 => exact absurd ((hd vs hfirst.mem).pos 0 h0) (by simp)
  · -- every integer is within the variables, so no literal is out of range
    obtain ⟨rfl, hvar⟩ := Clause.mapM_ofSigned_eq_ok_iff.1 hcs
    have hrange : ∀ c ∈ cs, ∀ l ∈ c.literals, l.InRange n := by
      intro c hc l hl
      have hle := (hd c.toSigned (List.mem_map_of_mem hc)).le
      exact (Literal.inRange_iff (hvar c hc l hl)).2 (hle _ (List.mem_map_of_mem hl))
    rw [Formula.firstStray?_eq_none_iff.2 hrange] at hstray
    cases hstray

/-- **What is not refused** because of its numbers can only be refused because its clauses are empty. -/
theorem refused_of_generate (hseed : Generator.ofValue seed = .ok g) (hp : Named n m k seed)
    (h : generate n m k seed = .error e) : Refused n m k e ∨ e = .formula (.clause .empty) := by
  rw [generate_eq hseed] at h
  by_cases hw : n < k
  · rw [if_pos hw, Error.ofSizes, if_pos ⟨hp.1.2.2, hp.1.1⟩] at h
    cases h
    exact .inl (.clauseSize hw)
  have hf : k ≤ n := by omega
  rw [if_neg hw] at h
  cases hd : draw n m k g with
  | error re =>
    rw [hd] at h
    cases h
    exact .inl (refused_of_draw hf hd)
  | ok lists =>
    rw [hd] at h
    simp only [if_pos hp] at h
    by_cases hn : n < 0
    · rw [Formula.build_of_negative hn, FormulaError.ofNegative, if_pos hp.1.1] at h
      cases h
      exact .inl (.negativeCount hf (le_zero_of_draw hf hn hd) hn)
    · obtain ⟨n, rfl⟩ := Int.eq_ofNat_of_zero_le (Int.not_lt.1 hn)
      cases hb : Formula.build Clause.ofSigned n lists [comment n m k seed] with
      | ok f =>
        rw [hb] at h
        cases h
      | error fe =>
        rw [hb] at h
        cases h
        exact .inr (by rw [empty_of_build (drawn_of_draw hf hd) hb])

/-! ## Batches -/

theorem laterSeed_int (s : Int) (i : Nat) : laterSeed (.int s) i = .int (s + i) := rfl

/-- Every instance of a batch has a seed that yields a generator, if the first one has. -/
theorem exists_generator (hs : 0 ≤ s) (i : Nat) : ∃ g, Generator.ofValue (laterSeed (.int s) i) = .ok g := by
  rw [laterSeed_int, Generator.ofValue_int, if_neg (by omega)]
  exact ⟨_, rfl⟩

/-- A batch with an instance in it is refused because of its numbers. -/
theorem batch_of_refused (hs : 0 ≤ s) (hc : 0 < count) (hp : Named n m k (.int s)) (h : Refused n m k e) :
    batch n m k count (.int s) = .error e := by
  obtain ⟨c, hcount⟩ : ∃ c, count.toNat = c + 1 := ⟨count.toNat - 1, by omega⟩
  obtain ⟨g, hg⟩ := exists_generator hs 0
  have hp' : Named n m k (laterSeed (.int s) 0) := by
    rw [laterSeed_int, Int.natCast_zero, Int.add_zero]
    exact hp
  rw [batch, hcount, List.range_succ_eq_map, List.mapM_cons, generate_of_refused hg hp' h]
  rfl

/-- **A batch is refused** because of its numbers, or because its clauses are empty. -/
theorem refused_of_batch (hs : 0 ≤ s) (hp : ∀ i < count.toNat, Named n m k (.int (s + i)))
    (h : batch n m k count (.int s) = .error e) :
    (0 < count ∧ Refused n m k e) ∨ e = .formula (.clause .empty) := by
  obtain ⟨i, hfirst, he⟩ := mapM_eq_error_iff.1 h
  obtain ⟨g, hg⟩ := exists_generator hs i
  have hc : i < count.toNat := List.mem_range.1 hfirst.mem
  exact (refused_of_generate hg (hp i hc) he).imp_left fun hr => ⟨by omega, hr⟩

end

end LocalSat.RandomKSat
