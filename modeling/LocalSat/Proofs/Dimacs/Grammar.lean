import LocalSat.Dimacs.Read
import Mathlib.Data.List.Forall2

/-!
# The grammar of the DIMACS format

Which texts are formulas, said without the scan that reads them. Lines count once they are stripped, and
the empty ones do not count at all. The first character sorts the rest: `marked 'c'` are the comments,
`marked 'p'` the problem lines, `unmarked` the clause lines. `WellFormed` says what they must be, each
kind by itself, so it does not matter where among the clause lines the problem line stands.

The scan keeps line numbers and a flag, and fails early. `Scanned` relates its items to the sorted lines
and forgets both; `scanned_of_items` and `exists_items` are the two inductions. What the second pass
makes of the items is `assemble_eq_ok_iff`, and `ofLines_eq_ok_iff` joins them.

Main statement: `read_accepts_exactly`.
-/

namespace LocalSat.Dimacs

open LocalSat.Text

/-! ## Sorted lines -/

/-- The stripped lines that are not empty. -/
def content (ls : List (List Char)) : List (List Char) :=
  (ls.map strip).filter (· ≠ [])

/-- The lines that start with a character. -/
def marked (c : Char) (ls : List (List Char)) : List (List Char) :=
  (content ls).filter (·.head? = some c)

/-- The lines that start neither as a comment nor as a problem line. -/
def unmarked (ls : List (List Char)) : List (List Char) :=
  (content ls).filter fun l => l.head? ≠ some 'c' ∧ l.head? ≠ some 'p'

/-- What a comment line says. -/
def remark (line : List Char) : String := String.ofList (strip line.tail)

/-- Words spell literals: each literal in turn, and then nothing, or a zero and anything. -/
def Spells (ws : List (List Char)) (vs : List Int) : Prop :=
  ∃ before after, ws = before ++ after ∧ before.map integer? = vs.map some ∧ 0 ∉ vs ∧
    ∀ z ∈ after.head?, integer? z = some 0

/-- The lines of a formula of `n` variables and `m` clauses; `lists` are the literals of the clause
lines, the empty ones included. -/
structure WellFormed (ls : List (List Char)) (n m : Nat) (lists : List (List Int)) : Prop where
  problem : ∃ line n' m', marked 'p' ls = [line] ∧ words line = [['p'], ['c', 'n', 'f'], n', m'] ∧
    integer? n' = some (n : Int) ∧ integer? m' = some (m : Int)
  spelled : List.Forall₂ (fun line vs => Spells (words line) vs) (unmarked ls) lists
  inRange : ∀ vs ∈ lists, ∀ v ∈ vs, v.natAbs ≤ n
  count : (lists.filter (· ≠ [])).length = m

section Sorting

variable {l : List Char} (ls : List (List Char))

theorem content_cons :
    content (l :: ls) = if strip l = [] then content ls else strip l :: content ls := by
  by_cases h : strip l = [] <;> simp [content, h]

theorem sorted_blank (h : strip l = []) (c : Char) :
    marked c (l :: ls) = marked c ls ∧ unmarked (l :: ls) = unmarked ls := by
  simp [marked, unmarked, content_cons, h]

theorem sorted_comment {t : List Char} (h : strip l = 'c' :: t) :
    marked 'c' (l :: ls) = ('c' :: t) :: marked 'c' ls ∧ marked 'p' (l :: ls) = marked 'p' ls ∧
      unmarked (l :: ls) = unmarked ls := by
  simp [marked, unmarked, content_cons, h]

theorem sorted_problem {t : List Char} (h : strip l = 'p' :: t) :
    marked 'c' (l :: ls) = marked 'c' ls ∧ marked 'p' (l :: ls) = ('p' :: t) :: marked 'p' ls ∧
      unmarked (l :: ls) = unmarked ls := by
  simp [marked, unmarked, content_cons, h]

theorem sorted_clause {d : Char} {t : List Char} (h : strip l = d :: t) (hc : d ≠ 'c') (hp : d ≠ 'p') :
    marked 'c' (l :: ls) = marked 'c' ls ∧ marked 'p' (l :: ls) = marked 'p' ls ∧
      unmarked (l :: ls) = (d :: t) :: unmarked ls := by
  simp [marked, unmarked, content_cons, h, hc, hp]

/-- The four kinds of a line. -/
theorem sort_cases (l : List Char) :
    strip l = [] ∨ (∃ t, strip l = 'c' :: t) ∨ (∃ t, strip l = 'p' :: t) ∨
      ∃ d t, strip l = d :: t ∧ d ≠ 'c' ∧ d ≠ 'p' := by
  rcases strip l with _ | ⟨d, t⟩
  · exact .inl rfl
  by_cases hc : d = 'c'
  · exact .inr (.inl ⟨t, by rw [hc]⟩)
  by_cases hp : d = 'p'
  · exact .inr (.inr (.inl ⟨t, by rw [hp]⟩))
  exact .inr (.inr (.inr ⟨d, t, rfl, hc, hp⟩))

end Sorting

/-! ## One line -/

theorem spells_nil {vs : List Int} : Spells [] vs ↔ vs = [] := by
  constructor
  · rintro ⟨before, after, h, hv, -, -⟩
    obtain ⟨rfl, -⟩ := List.append_eq_nil_iff.1 h.symm
    simpa using hv.symm
  · rintro rfl
    exact ⟨[], [], rfl, rfl, by simp, by simp⟩

theorem spells_cons {w : List Char} {ws : List (List Char)} {vs : List Int} :
    Spells (w :: ws) vs ↔ (integer? w = some 0 ∧ vs = []) ∨
      ∃ v vs', integer? w = some v ∧ v ≠ 0 ∧ vs = v :: vs' ∧ Spells ws vs' := by
  constructor
  · rintro ⟨before, after, h, hv, h0, hz⟩
    cases before with
    | nil =>
      obtain rfl : w :: ws = after := h
      exact .inl ⟨hz w rfl, by simpa using hv.symm⟩
    | cons w' before =>
      obtain ⟨rfl, rfl⟩ : w = w' ∧ ws = before ++ after := by simpa using h
      cases vs with
      | nil => simp at hv
      | cons v vs =>
        simp only [List.map_cons, List.cons.injEq] at hv
        simp only [List.mem_cons, not_or] at h0
        exact .inr ⟨v, vs, hv.1, Ne.symm h0.1, rfl, before, after, rfl, hv.2, h0.2, hz⟩
  · rintro (⟨hw, rfl⟩ | ⟨v, vs, hw, hv, rfl, before, after, rfl, hvs, h0, hz⟩)
    · exact ⟨[], w :: ws, rfl, rfl, by simp, by simpa using hw⟩
    · exact ⟨w :: before, after, rfl, by simp [hw, hvs], by simp [Ne.symm hv, h0], hz⟩

theorem literals?_eq_ok_iff {ws : List (List Char)} {vs : List Int} :
    literals? ws = .ok vs ↔ Spells ws vs := by
  induction ws generalizing vs with
  | nil => simp [literals?, spells_nil, eq_comm]
  | cons w ws ih =>
    rw [spells_cons, literals?]
    cases hw : integer? w with
    | none => simp
    | some n =>
      by_cases hn : n = 0
      · subst hn
        simp [eq_comm]
      · simp [hn, map_eq_ok_iff, ih, and_comm, @eq_comm _ _ vs]

theorem header?_eq_ok_iff {line : List Char} {n m : Nat} :
    header? line = .ok (n, m) ↔ ∃ n' m', words line = [['p'], ['c', 'n', 'f'], n', m'] ∧
      integer? n' = some (n : Int) ∧ integer? m' = some (m : Int) := by
  unfold header?
  constructor
  · intro h
    split at h
    · rename_i p format n' m' hw
      split at h
      · cases h
      rename_i hp
      split at h
      · cases h
      rename_i hf
      split at h
      · rename_i hn hm
        split at h
        · cases h
        rename_i hneg
        cases h
        refine ⟨n', m', by rw [hw, not_not.1 hp, not_not.1 hf], ?_, ?_⟩
        · rw [hn, Int.toNat_of_nonneg (by omega)]
        · rw [hm, Int.toNat_of_nonneg (by omega)]
      · cases h
    · cases h
  · rintro ⟨n', m', hw, hn, hm⟩
    simp [hw, hn, hm]

/-! ## All lines -/

/-- The counts of all problem lines among the items. -/
def headers (is : List Item) : List (Nat × Nat) :=
  is.filterMap fun | .header n m => some (n, m) | _ => none

/-- The items are what the lines say. -/
structure Scanned (ls : List (List Char)) (is : List Item) : Prop where
  remarks : comments is = (marked 'c' ls).map remark
  problems : List.Forall₂ (fun line c => header? line = .ok c) (marked 'p' ls) (headers is)
  lists : ∃ lists, List.Forall₂ (fun line vs => literals? (words line) = .ok vs) (unmarked ls) lists ∧
    (clauseLines is).map Prod.snd = lists.filter (· ≠ [])

section Items

variable {seen : Bool} {n : Nat} {l : List Char} {ls : List (List Char)}

theorem items_blank (h : strip l = []) : items seen n (l :: ls) = items seen (n + 1) ls := by
  rw [items, h]

theorem items_comment {t : List Char} (h : strip l = 'c' :: t) :
    items seen n (l :: ls) =
      (items seen (n + 1) ls).map (.comment (String.ofList (strip t)) :: ·) := by
  simp only [items, h]

theorem items_problem {t : List Char} (h : strip l = 'p' :: t) :
    items seen n (l :: ls) =
      if seen then .error (.header .repeated (some n))
      else match header? ('p' :: t) with
        | .error fault => .error (.header fault (some n))
        | .ok (nv, nc) => (items true (n + 1) ls).map (.header nv nc :: ·) := by
  rw [items, h]
  rfl

/-- A clause line leaves an item only if it has literals. -/
theorem items_clause {d : Char} {t : List Char} (h : strip l = d :: t) (hc : d ≠ 'c') (hp : d ≠ 'p') :
    items seen n (l :: ls) =
      match literals? (words (d :: t)) with
      | .error token => .error (.badToken token n)
      | .ok vs => (items seen (n + 1) ls).map fun is => if vs = [] then is else .clause n vs :: is := by
  simp only [items, h]
  split
  · rename_i hn; cases hn
  · rename_i ht; cases ht; exact absurd rfl hc
  · rename_i ht; cases ht; exact absurd rfl hp
  · rcases literals? (words (d :: t)) with token | (_ | ⟨v, vs⟩)
    · rfl
    · cases items seen (n + 1) ls <;> rfl
    · rfl

end Items

section Scanned

variable {l : List Char} {ls : List (List Char)} {is : List Item}

theorem Scanned.nil : Scanned [] [] :=
  ⟨rfl, .nil, [], .nil, rfl⟩

theorem Scanned.blank (h : strip l = []) (hs : Scanned ls is) : Scanned (l :: ls) is := by
  obtain ⟨hc, hh, hv⟩ := hs
  refine ⟨?_, ?_, ?_⟩
  · rwa [(sorted_blank ls h 'c').1]
  · rwa [(sorted_blank ls h 'p').1]
  · rwa [(sorted_blank ls h 'c').2]

theorem Scanned.comment {t : List Char} (h : strip l = 'c' :: t) (hs : Scanned ls is) :
    Scanned (l :: ls) (.comment (String.ofList (strip t)) :: is) := by
  obtain ⟨hmc, hmp, hu⟩ := sorted_comment ls h
  obtain ⟨hc, hh, hv⟩ := hs
  refine ⟨?_, ?_, ?_⟩
  · rw [hmc, List.map_cons, ← hc]
    rfl
  · rwa [hmp]
  · rwa [hu]

theorem Scanned.problem {t : List Char} {nv nc : Nat} (h : strip l = 'p' :: t)
    (hd : header? ('p' :: t) = .ok (nv, nc)) (hs : Scanned ls is) :
    Scanned (l :: ls) (.header nv nc :: is) := by
  obtain ⟨hmc, hmp, hu⟩ := sorted_problem ls h
  obtain ⟨hc, hh, hv⟩ := hs
  refine ⟨?_, ?_, ?_⟩
  · rwa [hmc]
  · rw [hmp]
    exact .cons hd hh
  · rwa [hu]

theorem Scanned.clause {d : Char} {t : List Char} {vs : List Int} {n : Nat} (h : strip l = d :: t)
    (hdc : d ≠ 'c') (hdp : d ≠ 'p') (hl : literals? (words (d :: t)) = .ok vs) (hs : Scanned ls is) :
    Scanned (l :: ls) (if vs = [] then is else .clause n vs :: is) := by
  obtain ⟨hmc, hmp, hu⟩ := sorted_clause ls h hdc hdp
  obtain ⟨hc, hh, lists, hf, hv⟩ := hs
  by_cases hvs : vs = []
  · rw [if_pos hvs]
    refine ⟨?_, ?_, vs :: lists, ?_, ?_⟩
    · rwa [hmc]
    · rwa [hmp]
    · rw [hu]
      exact .cons hl hf
    · simpa [hvs] using hv
  · rw [if_neg hvs]
    refine ⟨?_, ?_, vs :: lists, ?_, ?_⟩
    · rwa [hmc]
    · rwa [hmp]
    · rw [hu]
      exact .cons hl hf
    · rw [List.filter_cons_of_pos (by simpa using hvs), ← hv]
      rfl

end Scanned

theorem scanned_of_items {seen : Bool} {n : Nat} {ls : List (List Char)} {is : List Item}
    (h : items seen n ls = .ok is) :
    Scanned ls is ∧ (headers is).length ≤ if seen then 0 else 1 := by
  induction ls generalizing seen n is with
  | nil =>
    cases h
    exact ⟨.nil, Nat.zero_le _⟩
  | cons l ls ih =>
    rcases sort_cases l with hl | ⟨t, hl⟩ | ⟨t, hl⟩ | ⟨d, t, hl, hc, hp⟩
    · rw [items_blank hl] at h
      exact ⟨(ih h).1.blank hl, (ih h).2⟩
    · rw [items_comment hl] at h
      obtain ⟨js, hjs, rfl⟩ := map_eq_ok_iff.1 h
      exact ⟨(ih hjs).1.comment hl, (ih hjs).2⟩
    · rw [items_problem hl] at h
      cases seen with
      | true => cases h
      | false =>
        cases hd : header? ('p' :: t) with
        | error fault => simp [hd] at h
        | ok c =>
          simp only [hd, Bool.false_eq_true, if_false] at h
          obtain ⟨js, hjs, rfl⟩ := map_eq_ok_iff.1 h
          refine ⟨(ih hjs).1.problem hl hd, ?_⟩
          have := (ih hjs).2
          simpa [headers] using this
    · rw [items_clause hl hc hp] at h
      cases hv : literals? (words (d :: t)) with
      | error token => simp [hv] at h
      | ok vs =>
        simp only [hv] at h
        obtain ⟨js, hjs, rfl⟩ := map_eq_ok_iff.1 h
        refine ⟨(ih hjs).1.clause hl hc hp hv, ?_⟩
        have := (ih hjs).2
        split <;> exact this

theorem exists_items {seen : Bool} {n : Nat} {ls : List (List Char)}
    (hp : (marked 'p' ls).length ≤ if seen then 0 else 1)
    (hh : ∀ line ∈ marked 'p' ls, ∃ c, header? line = .ok c)
    (hv : ∀ line ∈ unmarked ls, ∃ vs, literals? (words line) = .ok vs) :
    ∃ is, items seen n ls = .ok is := by
  induction ls generalizing seen n with
  | nil => exact ⟨[], rfl⟩
  | cons l ls ih =>
    rcases sort_cases l with hl | ⟨t, hl⟩ | ⟨t, hl⟩ | ⟨d, t, hl, hdc, hdp⟩
    · rw [(sorted_blank ls hl 'p').1] at hp hh
      rw [(sorted_blank ls hl 'p').2] at hv
      rw [items_blank hl]
      exact ih hp hh hv
    · obtain ⟨-, hm, hu⟩ := sorted_comment ls hl
      rw [hm] at hp hh
      rw [hu] at hv
      obtain ⟨is, his⟩ := ih (n := n + 1) hp hh hv
      exact ⟨_, by rw [items_comment hl, his]; rfl⟩
    · obtain ⟨-, hm, hu⟩ := sorted_problem ls hl
      rw [hm] at hp hh
      rw [hu] at hv
      -- the problem line read here is the only one, so none is left for the rest
      cases seen with
      | true => simp at hp
      | false =>
        obtain ⟨⟨nv, nc⟩, hd⟩ := hh _ (List.mem_cons_self ..)
        have hrest : (marked 'p' ls).length ≤ if true then 0 else 1 := by simpa using hp
        obtain ⟨is, his⟩ := ih (n := n + 1) hrest (fun line h => hh line (.tail _ h)) hv
        exact ⟨_, by rw [items_problem hl, hd]; simp only [his]; rfl⟩
    · obtain ⟨-, hm, hu⟩ := sorted_clause ls hl hdc hdp
      rw [hm] at hp hh
      rw [hu] at hv
      obtain ⟨vs, hvs⟩ := hv _ (List.mem_cons_self ..)
      obtain ⟨is, his⟩ := ih (n := n + 1) hp hh fun line h => hv line (.tail _ h)
      exact ⟨_, by rw [items_clause hl hdc hdp, hvs]; simp only [his]; rfl⟩

/-! ## The second pass -/

theorem counts?_eq_head? (is : List Item) : counts? is = (headers is).head? := by
  induction is with
  | nil => rfl
  | cons i is ih => cases i <;> simp_all [counts?, headers]

theorem clauses?_cons {n line : Nat} {vs : List Int} {rest : List (Nat × List Int)}
    {cs : List Clause} :
    clauses? n ((line, vs) :: rest) = .ok cs ↔
      ∃ c, (c.toSigned = vs ∧ ∀ l ∈ c.literals, l.InRange n) ∧
        ∃ ds, clauses? n rest = .ok ds ∧ c :: ds = cs := by
  simp only [← Clause.ofSigned_inRange_iff, clauses?]
  cases hf : vs.find? (fun v => n < v.natAbs) with
  | some v =>
    have hv : n < v.natAbs := by simpa using List.find?_some hf
    simp only [reduceCtorEq, false_iff, not_exists]
    rintro c ⟨⟨-, hr⟩, -⟩
    exact absurd (hr v (List.mem_of_find?_eq_some hf)) (by omega)
  | none =>
    have hr : ∀ v ∈ vs, v.natAbs ≤ n := by simpa using List.find?_eq_none.1 hf
    cases Clause.ofSigned vs with
    | error e => simp
    | ok c => simpa [map_eq_ok_iff] using fun _ _ _ => hr

theorem clauses?_eq_ok_iff {n : Nat} {rest : List (Nat × List Int)} {cs : List Clause} :
    clauses? n rest = .ok cs ↔
      cs.map Clause.toSigned = rest.map Prod.snd ∧ ∀ c ∈ cs, ∀ l ∈ c.literals, l.InRange n := by
  induction rest generalizing cs with
  | nil => cases cs <;> simp [clauses?]
  | cons p rest ih =>
    obtain ⟨line, vs⟩ := p
    simp only [clauses?_cons, ih]
    constructor
    · rintro ⟨c, ⟨rfl, hc⟩, ds, ⟨hds, hr⟩, rfl⟩
      exact ⟨by simp [hds], by simpa using ⟨hc, hr⟩⟩
    · rintro ⟨h, hr⟩
      cases cs with
      | nil => cases h
      | cons c ds =>
        simp only [List.map_cons, List.cons.injEq] at h
        exact ⟨c, ⟨h.1, hr c (by simp)⟩, ds, ⟨h.2, fun d hd => hr d (by simp [hd])⟩, rfl⟩

theorem assemble_eq_ok_iff {is : List Item} {f : Formula} :
    assemble is = .ok f ↔
      (headers is).head? = some (f.numVariables, f.size) ∧
        f.toSigned = (clauseLines is).map Prod.snd ∧ f.comments = comments is := by
  rw [← counts?_eq_head?, assemble]
  constructor
  · intro h
    split at h
    · cases h
    rename_i n m hnm
    split at h
    · cases h
    rename_i cs hcs
    split at h
    · cases h
    rename_i hm
    split at h
    · cases h
    rename_i g hg
    cases h
    obtain ⟨rfl, rfl, hc⟩ := Formula.ofClauses_eq_ok_iff.1 hg
    refine ⟨?_, (clauses?_eq_ok_iff.1 hcs).1, hc⟩
    rw [hnm, Formula.size, not_not.1 hm]
  · rintro ⟨hc, hs, ht⟩
    have hcs : clauses? f.numVariables (clauseLines is) = .ok f.clauses :=
      clauses?_eq_ok_iff.2 ⟨hs, f.inRange⟩
    have hf : Formula.ofClauses f.numVariables f.clauses (comments is) = .ok f :=
      Formula.ofClauses_eq_ok_iff.2 ⟨rfl, rfl, ht⟩
    simp [hc, hcs, Formula.size, hf]

/-! ## Both passes -/

theorem Scanned.header_of_headers {ls : List (List Char)} {is : List Item} {c : Nat × Nat}
    (hs : Scanned ls is) (h : headers is = [c]) :
    ∃ line, marked 'p' ls = [line] ∧ header? line = .ok c := by
  have hf := hs.problems
  rw [h] at hf
  obtain ⟨line, rest, hl, hr, hm⟩ := List.forall₂_cons_right_iff.1 hf
  rw [List.forall₂_nil_right_iff.1 hr] at hm
  exact ⟨line, hm, hl⟩

/-- What the lines say is determined, so the items of well-formed lines are too. -/
theorem Scanned.headers_of_header {ls : List (List Char)} {is : List Item} {line : List Char}
    {c : Nat × Nat} (hs : Scanned ls is) (h : marked 'p' ls = [line]) (hl : header? line = .ok c) :
    headers is = [c] := by
  have hf := hs.problems
  rw [h] at hf
  have hu : Relator.RightUnique fun line c => header? line = .ok c :=
    fun line c d hc hd => by simpa [hc] using hd
  exact hu.forall₂ hf (.cons hl .nil)

theorem Scanned.clauseLines_of_spelled {ls : List (List Char)} {is : List Item}
    {lists : List (List Int)} (hs : Scanned ls is)
    (h : List.Forall₂ (fun line vs => Spells (words line) vs) (unmarked ls) lists) :
    (clauseLines is).map Prod.snd = lists.filter (· ≠ []) := by
  obtain ⟨lists', hf, hl⟩ := hs.lists
  have hu : Relator.RightUnique fun line vs => literals? (words line) = .ok vs :=
    fun line vs ws hv hw => by simpa [hv] using hw
  rw [hl, hu.forall₂ hf (h.imp fun _ _ => literals?_eq_ok_iff.2)]

theorem exists_items_of_wellFormed {ls : List (List Char)} {n m : Nat} {lists : List (List Int)}
    (h : WellFormed ls n m lists) :
    ∃ is, items false 1 ls = .ok is ∧ headers is = [(n, m)] ∧ comments is = (marked 'c' ls).map remark ∧
      (clauseLines is).map Prod.snd = lists.filter (· ≠ []) := by
  obtain ⟨line, n', m', hm, hw⟩ := h.problem
  have hl := header?_eq_ok_iff.2 ⟨n', m', hw⟩
  obtain ⟨is, his⟩ : ∃ is, items false 1 ls = .ok is := by
    refine exists_items (by simp [hm]) (fun line' h' => ?_) ?_
    · rw [hm] at h'
      exact ⟨_, List.mem_singleton.1 h' ▸ hl⟩
    · have hf := h.spelled.imp fun line vs h =>
        show (∃ vs, literals? (words line) = .ok vs) ∧ Spells (words line) vs from
          ⟨⟨vs, literals?_eq_ok_iff.2 h⟩, h⟩
      exact ((List.forall₂_and_left _ _).1 hf).1
  have hs := (scanned_of_items his).1
  exact ⟨is, his, hs.headers_of_header hm hl, hs.remarks, hs.clauseLines_of_spelled h.spelled⟩

/-- There being at most one problem line, the first is the only one. -/
theorem headers_eq_singleton {is : List Item} {c : Nat × Nat} (hh : (headers is).head? = some c)
    (hlen : (headers is).length ≤ 1) : headers is = [c] := by
  cases hi : headers is with
  | nil => simp [hi] at hh
  | cons c' cs =>
    obtain rfl : cs = [] := by simpa [hi] using hlen
    simpa [hi] using hh

theorem wellFormed_of_items {ls : List (List Char)} {is : List Item} {f : Formula}
    (his : items false 1 ls = .ok is) (hh : (headers is).head? = some (f.numVariables, f.size))
    (hv : f.toSigned = (clauseLines is).map Prod.snd) :
    ∃ lists, WellFormed ls f.numVariables f.size lists ∧ f.toSigned = lists.filter (· ≠ []) := by
  obtain ⟨hs, hlen⟩ := scanned_of_items his
  obtain ⟨line, hm, hl⟩ := hs.header_of_headers (headers_eq_singleton hh hlen)
  obtain ⟨lists, hf, hn⟩ := hs.lists
  rw [hn] at hv
  refine ⟨lists, ⟨?_, ?_, ?_, ?_⟩, hv⟩
  · obtain ⟨n', m', hw⟩ := header?_eq_ok_iff.1 hl
    exact ⟨line, n', m', hm, hw⟩
  · exact hf.imp fun _ _ => literals?_eq_ok_iff.1
  · intro vs hvs v hmem
    have hin : vs ∈ f.toSigned := by
      rw [hv]
      exact List.mem_filter.2 ⟨hvs, by simpa using List.ne_nil_of_mem hmem⟩
    exact f.natAbs_le_of_mem_toSigned hin hmem
  · rw [← hv, f.length_toSigned]

theorem ofLines_eq_ok_iff {ls : List (List Char)} {f : Formula} :
    ofLines ls = .ok f ↔ ∃ lists, WellFormed ls f.numVariables f.size lists ∧
      f.toSigned = lists.filter (· ≠ []) ∧ f.comments = (marked 'c' ls).map remark := by
  constructor
  · intro h
    unfold ofLines at h
    cases his : items false 1 ls with
    | error e => simp [his] at h
    | ok is =>
      simp only [his] at h
      obtain ⟨hh, hv, ht⟩ := assemble_eq_ok_iff.1 h
      obtain ⟨lists, hw, hl⟩ := wellFormed_of_items his hh hv
      exact ⟨lists, hw, hl, ht.trans (scanned_of_items his).1.remarks⟩
  · rintro ⟨lists, hw, hv, ht⟩
    obtain ⟨is, his, hh, hc, hl⟩ := exists_items_of_wellFormed hw
    rw [ofLines, his]
    refine assemble_eq_ok_iff.2 ⟨?_, hv.trans hl.symm, ht.trans hc.symm⟩
    rw [hh]
    rfl

theorem zero_not_mem_of_spelled {ls : List (List Char)} {lists : List (List Int)}
    (h : List.Forall₂ (fun line vs => Spells (words line) vs) ls lists) : ∀ vs ∈ lists, 0 ∉ vs := by
  induction h with
  | nil => simp
  | cons h _ ih =>
    obtain ⟨-, -, -, -, h0, -⟩ := h
    simpa using ⟨h0, ih⟩

/-- The clauses of well-formed lines exist, so the second pass never meets one that does not. -/
theorem WellFormed.exists_formula {ls : List (List Char)} {n m : Nat} {lists : List (List Int)}
    (h : WellFormed ls n m lists) (ts : List String) :
    ∃ f : Formula, f.numVariables = n ∧ f.size = m ∧ f.toSigned = lists.filter (· ≠ []) ∧
      f.comments = ts := by
  obtain ⟨cs, hcs, hr⟩ : ∃ cs : List Clause, cs.map Clause.toSigned = lists.filter (· ≠ []) ∧
      ∀ c ∈ cs, ∀ l ∈ c.literals, l.InRange n := by
    refine Formula.exists_clauses fun vs hvs => ?_
    obtain ⟨hvs, hne⟩ := List.mem_filter.1 hvs
    exact ⟨by simpa using hne, zero_not_mem_of_spelled h.spelled vs hvs, h.inRange vs hvs⟩
  refine ⟨⟨n, cs, ts, hr⟩, rfl, ?_, hcs, rfl⟩
  rw [← Formula.length_toSigned, ← h.count, ← hcs]
  rfl

/-- **The grammar.** A text is a formula exactly if its lines are well-formed; the formula then has the
declared variables, the non-empty lists of literals as clauses in the order of their lines, and what the
comment lines say as comments. -/
theorem read_accepts_exactly (text : String) :
    ((∃ f, read .boundary text = .ok f) ↔
      ∃ n m lists, WellFormed (lines .boundary text.toList) n m lists) ∧
    ∀ f, read .boundary text = .ok f ↔
      ∃ lists, WellFormed (lines .boundary text.toList) f.numVariables f.size lists ∧
        f.toSigned = lists.filter (· ≠ []) ∧
        f.comments = (marked 'c' (lines .boundary text.toList)).map remark := by
  refine ⟨⟨?_, ?_⟩, fun f => ofLines_eq_ok_iff⟩
  · rintro ⟨f, hf⟩
    obtain ⟨lists, hw, -⟩ := ofLines_eq_ok_iff.1 hf
    exact ⟨_, _, lists, hw⟩
  · rintro ⟨n, m, lists, hw⟩
    obtain ⟨f, rfl, rfl, hf⟩ := hw.exists_formula ((marked 'c' (lines .boundary text.toList)).map remark)
    exact ⟨f, ofLines_eq_ok_iff.2 ⟨lists, hw, hf⟩⟩

end LocalSat.Dimacs
