import LocalSat.Failure
import LocalSat.Proofs.Dimacs.Grammar

/-!
# The first fault of a text

Which complaint a text without a formula is refused with. A line can be at fault by its form, in view of
the lines before it (`Faulty`), or exceed the declared number of variables (`Excessive`). `First` picks
the first line of either kind, and `Refused` puts the kinds in their order: form, then a missing problem
line, then an excess, then the number of clauses.

Both passes go through the lines in order and stop at the first fault, so each is one induction on the
lines still to come, over the lines already read: `items_eq_error_iff` and `clauses?_eq_error_iff`.
`ofLines_eq_error_iff` joins them. Main statement: `read_refuses_exactly`.
-/

namespace LocalSat.Dimacs

open LocalSat.Text

/-! ## The first line of a kind -/

/-- What may be wrong with a line, in view of the lines before it. -/
abbrev Check := List (List Char) → List Char → ReadError → Prop

/-- The check finds nothing in `ls`, which come after the lines `pre`. -/
def Nowhere (P : Check) (pre ls : List (List Char)) : Prop :=
  ∀ before line after e, ls = before ++ line :: after → ¬ P (pre ++ before) line e

/-- The check finds `e` in the first line of `ls` in which it finds anything. -/
def First (P : Check) (pre ls : List (List Char)) (e : ReadError) : Prop :=
  ∃ before line after, ls = before ++ line :: after ∧ Nowhere P pre before ∧ P (pre ++ before) line e

section
variable {P : Check} {pre ls : List (List Char)} {l : List Char} {e : ReadError}

theorem nowhere_nil : Nowhere P pre [] := by
  intro before line after e h
  simp at h

theorem not_first_nil : ¬ First P pre [] e := by
  rintro ⟨before, line, after, h, -⟩
  simp at h

theorem nowhere_cons : Nowhere P pre (l :: ls) ↔ (∀ e, ¬ P pre l e) ∧ Nowhere P (pre ++ [l]) ls := by
  constructor
  · intro h
    refine ⟨fun e he => h [] l ls e rfl (by simpa using he), ?_⟩
    intro before line after e hls
    simpa using h (l :: before) line after e (by simp [hls])
  · rintro ⟨hl, h⟩ before line after e hls
    cases before with
    | nil =>
      obtain ⟨rfl, -⟩ : l = line ∧ ls = after := by simpa using hls
      simpa using hl e
    | cons b before =>
      obtain ⟨rfl, htail⟩ : l = b ∧ ls = before ++ line :: after := by simpa using hls
      simpa using h before line after e htail

theorem first_cons :
    First P pre (l :: ls) e ↔ P pre l e ∨ (∀ e, ¬ P pre l e) ∧ First P (pre ++ [l]) ls e := by
  constructor
  · rintro ⟨before, line, after, hls, hn, he⟩
    cases before with
    | nil =>
      obtain ⟨rfl, -⟩ : l = line ∧ ls = after := by simpa using hls
      exact .inl (by simpa using he)
    | cons b before =>
      obtain ⟨rfl, htail⟩ : l = b ∧ ls = before ++ line :: after := by simpa using hls
      obtain ⟨hl, hn⟩ := nowhere_cons.1 hn
      exact .inr ⟨hl, before, line, after, htail, hn, by simpa using he⟩
  · rintro (he | ⟨hl, before, line, after, rfl, hn, he⟩)
    · exact ⟨[], l, ls, rfl, nowhere_nil, by simpa using he⟩
    · exact ⟨l :: before, line, after, rfl, nowhere_cons.2 ⟨hl, hn⟩, by simpa using he⟩

/-- What is found anywhere is found somewhere first. -/
theorem nowhere_iff : Nowhere P pre ls ↔ ∀ e, ¬ First P pre ls e := by
  induction ls generalizing pre with
  | nil => exact ⟨fun _ _ => not_first_nil, fun _ => nowhere_nil⟩
  | cons l ls ih =>
    simp only [nowhere_cons, first_cons, ih, not_or, not_and, forall_and]
    exact ⟨fun ⟨hl, h⟩ => ⟨hl, fun e _ => h e⟩, fun ⟨hl, h⟩ => ⟨hl, fun e => h e hl⟩⟩

end

/-! ## Faults of one line -/

/-- What is wrong with a problem line. -/
inductive Misshapen (line : List Char) : HeaderFault → Prop
  | shape (odd : ¬ ∃ format n m, words line = [['p'], format, n, m]) :
      Misshapen line (.misshapen (String.ofList line))
  | format {format n m : List Char} (parts : words line = [['p'], format, n, m])
      (other : format ≠ ['c', 'n', 'f']) : Misshapen line (.unknownFormat (String.ofList format))
  | numbers {n m : List Char} (parts : words line = [['p'], ['c', 'n', 'f'], n, m])
      (odd : integer? n = none ∨ integer? m = none) : Misshapen line (.notNumbers (String.ofList line))
  | negative {n m : List Char} {a b : Int} (parts : words line = [['p'], ['c', 'n', 'f'], n, m])
      (left : integer? n = some a) (right : integer? m = some b) (below : a < 0 ∨ b < 0) :
      Misshapen line (.negative (String.ofList line))

/-- A word that is no integer stands before the first zero among the words. -/
def Stumbles (ws : List (List Char)) (token : String) : Prop :=
  ∃ before t after, ∃ vs : List Int, ws = before ++ t :: after ∧ before.map integer? = vs.map some ∧ 0 ∉ vs ∧
    integer? t = none ∧ token = String.ofList t

/-- The line is neither a comment nor a problem line. -/
def Plain (line : List Char) : Prop := line.head? ≠ some 'c' ∧ line.head? ≠ some 'p'

/-- What is wrong with the form of a line: it is a second problem line, however it looks, or a first one
that is misshapen, or a clause line with a word that is no integer. -/
inductive Faulty (before : List (List Char)) (line : List Char) : ReadError → Prop
  | repeated (problem : (strip line).head? = some 'p') (earlier : marked 'p' before ≠ []) :
      Faulty before line (.header .repeated (some (before.length + 1)))
  | misshapen {fault : HeaderFault} (problem : (strip line).head? = some 'p')
      (first : marked 'p' before = []) (odd : Misshapen (strip line) fault) :
      Faulty before line (.header fault (some (before.length + 1)))
  | badToken {token : String} (plain : Plain (strip line)) (odd : Stumbles (words (strip line)) token) :
      Faulty before line (.badToken token (before.length + 1))

/-- What is wrong with a clause line if `n` variables are declared: its first literal beyond them. -/
inductive Excessive (n : Nat) (before : List (List Char)) (line : List Char) : ReadError → Prop
  | mk {vs within rest : List Int} {v : Int} (plain : Plain (strip line))
      (spelled : Spells (words (strip line)) vs) (split : vs = within ++ v :: rest)
      (declared : ∀ w ∈ within, w.natAbs ≤ n) (beyond : n < v.natAbs) :
      Excessive n before line (.undeclared v.natAbs n vs (before.length + 1))

/-- The one problem line declares `n` variables and `m` clauses. -/
def Declares (ls : List (List Char)) (n m : Nat) : Prop :=
  ∃ line n' m', marked 'p' ls = [line] ∧ words line = [['p'], ['c', 'n', 'f'], n', m'] ∧
    integer? n' = some (n : Int) ∧ integer? m' = some (m : Int)

/-- Why lines are no formula: the first line at fault by its form; or else that there is no problem line;
or else the first line that exceeds what it declares; or else the number of clauses. -/
inductive Refused (ls : List (List Char)) : ReadError → Prop
  | form {e : ReadError} (first : First Faulty [] ls e) : Refused ls e
  | headless (formed : Nowhere Faulty [] ls) (headless : marked 'p' ls = []) :
      Refused ls (.header .missing none)
  | excess {n m : Nat} {e : ReadError} (formed : Nowhere Faulty [] ls) (declared : Declares ls n m)
      (first : First (Excessive n) [] ls e) : Refused ls e
  | count {n m : Nat} {lists : List (List Int)} (formed : Nowhere Faulty [] ls)
      (declared : Declares ls n m) (within : Nowhere (Excessive n) [] ls)
      (spelled : List.Forall₂ (fun line vs => Spells (words line) vs) (unmarked ls) lists)
      (other : (lists.filter (· ≠ [])).length ≠ m) :
      Refused ls (.countMismatch m (lists.filter (· ≠ [])).length)

/-! ## One line -/

theorem misshapen_of_header? {line : List Char} {fault : HeaderFault} (h : header? line = .error fault) :
    Misshapen line fault := by
  unfold header? at h
  split at h
  · rename_i p format n m hw
    split at h
    · rename_i hp
      cases h
      refine .shape ?_
      rintro ⟨format', n', m', hw'⟩
      rw [hw] at hw'
      simp only [List.cons.injEq] at hw'
      exact hp hw'.1
    rename_i hp
    rw [not_not.1 hp] at hw
    split at h
    · rename_i hf
      cases h
      exact .format hw hf
    rename_i hf
    rw [not_not.1 hf] at hw
    split at h
    · rename_i a b hn hm
      split at h
      · rename_i hneg
        cases h
        exact .negative hw hn hm hneg
      · cases h
    · rename_i hnum
      cases h
      refine .numbers hw ?_
      cases hn : integer? n with
      | none => exact .inl rfl
      | some a =>
        cases hm : integer? m with
        | none => exact .inr rfl
        | some b => exact absurd hm (hnum a b hn)
  · rename_i hw
    cases h
    refine .shape ?_
    rintro ⟨format, n, m, hw'⟩
    exact hw _ _ _ _ hw'

theorem header?_of_misshapen {line : List Char} {fault : HeaderFault} (h : Misshapen line fault) :
    header? line = .error fault := by
  unfold header?
  cases h with
  | shape odd =>
    split
    · rename_i p format n m hw
      have hp : p ≠ ['p'] := fun hp => odd ⟨format, n, m, hp ▸ hw⟩
      rw [if_pos hp]
    · rfl
  | format parts other => simp [parts, other]
  | numbers parts odd =>
    rename_i n m
    simp only [parts]
    rcases odd with hn | hm
    · simp [hn]
    · cases hn : integer? n <;> simp [hm]
  | negative parts left right below => simp [parts, left, right, below]

theorem header?_eq_error_iff {line : List Char} {fault : HeaderFault} :
    header? line = .error fault ↔ Misshapen line fault :=
  ⟨misshapen_of_header?, header?_of_misshapen⟩

theorem stumbles_cons {w : List Char} {ws : List (List Char)} {token : String} :
    Stumbles (w :: ws) token ↔ (integer? w = none ∧ token = String.ofList w) ∨
      ∃ v, integer? w = some v ∧ v ≠ 0 ∧ Stumbles ws token := by
  constructor
  · rintro ⟨before, t, after, vs, hw, hv, h0, ht, rfl⟩
    cases before with
    | nil =>
      obtain ⟨rfl, -⟩ : w = t ∧ ws = after := by simpa using hw
      exact .inl ⟨ht, rfl⟩
    | cons b before =>
      obtain ⟨rfl, htail⟩ : w = b ∧ ws = before ++ t :: after := by simpa using hw
      cases vs with
      | nil => simp at hv
      | cons v vs =>
        simp only [List.map_cons, List.cons.injEq] at hv
        simp only [List.mem_cons, not_or] at h0
        exact .inr ⟨v, hv.1, Ne.symm h0.1, before, t, after, vs, htail, hv.2, h0.2, ht, rfl⟩
  · rintro (⟨hw, rfl⟩ | ⟨v, hw, hv0, before, t, after, vs, rfl, hv, h0, ht, rfl⟩)
    · exact ⟨[], w, ws, [], rfl, rfl, by simp, hw, rfl⟩
    · exact ⟨w :: before, t, after, v :: vs, rfl, by simp [hw, hv], by simp [Ne.symm hv0, h0], ht, rfl⟩

theorem literals?_eq_error_iff {ws : List (List Char)} {token : String} :
    literals? ws = .error token ↔ Stumbles ws token := by
  induction ws with
  | nil =>
    constructor
    · intro h
      cases h
    · rintro ⟨before, t, after, vs, h, -⟩
      simp at h
  | cons w ws ih =>
    rw [stumbles_cons, literals?]
    cases hw : integer? w with
    | none => simp [eq_comm]
    | some n =>
      by_cases hn : n = 0
      · simp [hn]
      · simp [hn, map_eq_error_iff, ih]

/-! ## The first pass -/

/-- Whether a problem line is among the lines. -/
def announced (ls : List (List Char)) : Bool := !(marked 'p' ls).isEmpty

section
variable {pre ls : List (List Char)} {l : List Char} {e : ReadError}

theorem announced_iff : announced ls = true ↔ marked 'p' ls ≠ [] := by
  simp [announced]

theorem announced_append :
    announced (pre ++ [l]) = (announced pre || decide ((strip l).head? = some 'p')) := by
  rcases sort_cases l with hl | ⟨t, hl⟩ | ⟨t, hl⟩ | ⟨d, t, hl, hc, hp⟩
  · simp [announced, marked, content, hl]
  · simp [announced, marked, content, hl]
  · simp [announced, marked, content, hl]
  · simp [announced, marked, content, hl, hp]

theorem not_faulty_blank (h : strip l = []) : ¬ Faulty pre l e := by
  intro he
  cases he with
  | repeated problem earlier => simp [h] at problem
  | misshapen problem first odd => simp [h] at problem
  | badToken plain odd =>
    rw [h, ← literals?_eq_error_iff] at odd
    cases odd

theorem not_faulty_comment {t : List Char} (h : strip l = 'c' :: t) : ¬ Faulty pre l e := by
  intro he
  cases he with
  | repeated problem earlier => simp [h] at problem
  | misshapen problem first odd => simp [h] at problem
  | badToken plain odd => exact plain.1 (by simp [h])

theorem faulty_problem_iff {t : List Char} (h : strip l = 'p' :: t) :
    Faulty pre l e ↔ if announced pre then e = .header .repeated (some (pre.length + 1))
      else ∃ fault, header? ('p' :: t) = .error fault ∧ e = .header fault (some (pre.length + 1)) := by
  have hhead : (strip l).head? = some 'p' := by rw [h]; rfl
  constructor
  · intro he
    cases he with
    | repeated problem earlier => rw [if_pos (announced_iff.2 earlier)]
    | misshapen problem first odd =>
      have ha : ¬ announced pre = true := fun ha => announced_iff.1 ha first
      rw [if_neg ha]
      rw [h] at odd
      exact ⟨_, header?_eq_error_iff.2 odd, rfl⟩
    | badToken plain odd => exact absurd hhead plain.2
  · intro he
    by_cases ha : announced pre = true
    · rw [if_pos ha] at he
      subst he
      exact .repeated hhead (announced_iff.1 ha)
    · rw [if_neg ha] at he
      obtain ⟨fault, hd, rfl⟩ := he
      refine .misshapen hhead (not_not.1 fun hm => ha (announced_iff.2 hm)) ?_
      rw [h]
      exact header?_eq_error_iff.1 hd

theorem faulty_clause_iff {d : Char} {t : List Char} (h : strip l = d :: t) (hc : d ≠ 'c')
    (hp : d ≠ 'p') : Faulty pre l e ↔
      ∃ token, literals? (words (d :: t)) = .error token ∧ e = .badToken token (pre.length + 1) := by
  constructor
  · intro he
    cases he with
    | repeated problem earlier => simp [h, hp] at problem
    | misshapen problem first odd => simp [h, hp] at problem
    | badToken plain odd =>
      rw [h] at odd
      exact ⟨_, literals?_eq_error_iff.2 odd, rfl⟩
  · rintro ⟨token, ht, rfl⟩
    refine .badToken ⟨by simp [h, hc], by simp [h, hp]⟩ ?_
    rw [h]
    exact literals?_eq_error_iff.1 ht

/-- Reading one line more: its fault is the answer, or it has none and the rest decides. -/
theorem items_cons_eq_error_iff :
    items (announced pre) (pre.length + 1) (l :: ls) = .error e ↔ Faulty pre l e ∨
      (∀ e, ¬ Faulty pre l e) ∧
        items (announced (pre ++ [l])) ((pre ++ [l]).length + 1) ls = .error e := by
  rw [announced_append, List.length_append, List.length_singleton]
  rcases sort_cases l with hl | ⟨t, hl⟩ | ⟨t, hl⟩ | ⟨d, t, hl, hc, hp⟩
  · simp [items_blank hl, not_faulty_blank hl, hl]
  · simp [items_comment hl, not_faulty_comment hl, hl, map_eq_error_iff]
  · simp only [items_problem hl, faulty_problem_iff hl]
    cases ha : announced pre with
    | true => simp [eq_comm]
    | false =>
      cases hd : header? ('p' :: t) with
      | error fault => simp [eq_comm]
      | ok c => simp [map_eq_error_iff, hl]
  · simp only [items_clause hl hc hp, faulty_clause_iff hl hc hp]
    cases hv : literals? (words (d :: t)) with
    | error token => simp [eq_comm]
    | ok vs => simp [map_eq_error_iff, hl, hp]

/-- **The first pass** fails with the first fault in the form of a line. -/
theorem items_eq_error_iff :
    items (announced pre) (pre.length + 1) ls = .error e ↔ First Faulty pre ls e := by
  induction ls generalizing pre with
  | nil => exact ⟨fun h => (by cases h), fun h => absurd h not_first_nil⟩
  | cons l ls ih => rw [items_cons_eq_error_iff, first_cons, ih]

end

/-! ## The second pass -/

section
variable {pre ls : List (List Char)} {l : List Char} {n : Nat} {e : ReadError}

theorem not_excessive_nil (h : strip l = []) : ¬ Excessive n pre l e := by
  rintro ⟨-, spelled, split, -, -⟩
  rw [h] at spelled
  rw [spells_nil.1 spelled] at split
  simp at split

theorem not_excessive_marked (h : ¬ Plain (strip l)) : ¬ Excessive n pre l e := by
  rintro ⟨plain, -, -, -, -⟩
  exact h plain

theorem excessive_clause_iff {vs : List Int} (hp : Plain (strip l))
    (hv : literals? (words (strip l)) = .ok vs) : Excessive n pre l e ↔
      ∃ v, vs.find? (fun v => n < v.natAbs) = some v ∧ e = .undeclared v.natAbs n vs (pre.length + 1) := by
  simp only [List.find?_eq_some_iff_append, Bool.not_eq_true', decide_eq_true_eq, decide_eq_false_iff_not,
    Nat.not_lt]
  constructor
  · rintro ⟨plain, spelled, rfl, declared, beyond⟩
    rw [← literals?_eq_ok_iff, hv] at spelled
    cases spelled
    exact ⟨_, ⟨beyond, _, _, rfl, declared⟩, rfl⟩
  · rintro ⟨v, ⟨beyond, within, rest, rfl, declared⟩, rfl⟩
    exact ⟨hp, literals?_eq_ok_iff.1 hv, rfl, declared, beyond⟩

/-- What one line more adds to the clause lines. -/
theorem clauseLines_cons {is : List Item}
    (h : items (announced pre) (pre.length + 1) (l :: ls) = .ok is) :
    ∃ js, items (announced (pre ++ [l])) ((pre ++ [l]).length + 1) ls = .ok js ∧
      ((clauseLines is = clauseLines js ∧ ∀ n e, ¬ Excessive n pre l e) ∨
        ∃ vs, clauseLines is = (pre.length + 1, vs) :: clauseLines js ∧ vs ≠ [] ∧ Plain (strip l) ∧
          literals? (words (strip l)) = .ok vs) := by
  rw [announced_append, List.length_append, List.length_singleton]
  rcases sort_cases l with hl | ⟨t, hl⟩ | ⟨t, hl⟩ | ⟨d, t, hl, hc, hp⟩
  · rw [items_blank hl] at h
    exact ⟨is, by simpa [hl] using h, .inl ⟨rfl, fun _ _ => not_excessive_nil hl⟩⟩
  · rw [items_comment hl] at h
    obtain ⟨js, hjs, rfl⟩ := map_eq_ok_iff.1 h
    exact ⟨js, by simpa [hl] using hjs,
      .inl ⟨rfl, fun _ _ => not_excessive_marked fun hp => hp.1 (by rw [hl]; rfl)⟩⟩
  · rw [items_problem hl] at h
    split at h
    · cases h
    split at h
    · cases h
    obtain ⟨js, hjs, rfl⟩ := map_eq_ok_iff.1 h
    exact ⟨js, by simpa [hl] using hjs,
      .inl ⟨rfl, fun _ _ => not_excessive_marked fun hp => hp.2 (by rw [hl]; rfl)⟩⟩
  · rw [items_clause hl hc hp] at h
    have hplain : Plain (strip l) := ⟨by simp [hl, hc], by simp [hl, hp]⟩
    split at h
    · cases h
    rename_i vs hvs
    rw [← hl] at hvs
    obtain ⟨js, hjs, rfl⟩ := map_eq_ok_iff.1 h
    refine ⟨js, by simpa [hl, hp] using hjs, ?_⟩
    by_cases hne : vs = []
    · subst hne
      refine .inl ⟨by simp, fun n e he => ?_⟩
      obtain ⟨v, hv, -⟩ := (excessive_clause_iff hplain hvs).1 he
      cases hv
    · exact .inr ⟨vs, by simp [hne, clauseLines], hne, hplain, hvs⟩

/-- **The second pass** fails with the first line that exceeds the declared number of variables. -/
theorem clauses?_eq_error_iff {is : List Item} (h : items (announced pre) (pre.length + 1) ls = .ok is) :
    clauses? n (clauseLines is) = .error e ↔ First (Excessive n) pre ls e := by
  induction ls generalizing pre is with
  | nil =>
    cases h
    exact ⟨fun h => (by cases h), fun h => absurd h not_first_nil⟩
  | cons l ls ih =>
    rw [first_cons]
    obtain ⟨js, hjs, ⟨his, hnone⟩ | ⟨vs, his, hne, hplain, hvs⟩⟩ := clauseLines_cons h
    · simp [his, ih hjs, hnone]
    · simp only [his, ← ih hjs, excessive_clause_iff hplain hvs]
      obtain ⟨-, -, -, -, h0, -⟩ := literals?_eq_ok_iff.1 hvs
      -- the literals of a clause line are some and none of them is zero, so they make a clause
      obtain ⟨c, hc⟩ := Clause.exists_ofSigned hne h0
      rw [clauses?, hc]
      cases hf : vs.find? (fun v => n < v.natAbs) with
      | some v => simp [eq_comm]
      | none => simp [map_eq_error_iff]

end

/-! ## Both passes -/

section
variable {ls : List (List Char)} {is : List Item} {n m : Nat} {e : ReadError}

theorem items_error_iff : items false 1 ls = .error e ↔ First Faulty [] ls e :=
  @items_eq_error_iff [] ls e

theorem clauses?_error_iff (h : items false 1 ls = .ok is) :
    clauses? n (clauseLines is) = .error e ↔ First (Excessive n) [] ls e :=
  @clauses?_eq_error_iff [] ls n e is h

theorem declares_iff : Declares ls n m ↔ ∃ line, marked 'p' ls = [line] ∧ header? line = .ok (n, m) := by
  simp only [Declares, header?_eq_ok_iff]
  exact exists_congr fun line => ⟨fun ⟨n', m', h, hw⟩ => ⟨h, n', m', hw⟩,
    fun ⟨h, n', m', hw⟩ => ⟨n', m', h, hw⟩⟩

theorem counts?_eq_none_iff (hs : Scanned ls is) : counts? is = none ↔ marked 'p' ls = [] := by
  rw [counts?_eq_head?, List.head?_eq_none_iff, ← List.length_eq_zero_iff, ← List.length_eq_zero_iff,
    hs.problems.length_eq]

theorem counts?_eq_some_iff (h : items false 1 ls = .ok is) :
    counts? is = some (n, m) ↔ Declares ls n m := by
  obtain ⟨hs, hlen⟩ := scanned_of_items h
  rw [counts?_eq_head?, declares_iff]
  constructor
  · intro hh
    exact hs.header_of_headers (headers_eq_singleton hh hlen)
  · rintro ⟨line, hm, hl⟩
    rw [hs.headers_of_header hm hl]
    rfl

theorem length_of_clauses? {cs : List Clause} {lists : List (List Int)} (hs : Scanned ls is)
    (hcs : clauses? n (clauseLines is) = .ok cs)
    (hl : List.Forall₂ (fun line vs => Spells (words line) vs) (unmarked ls) lists) :
    (lists.filter (· ≠ [])).length = cs.length := by
  rw [← hs.clauseLines_of_spelled hl, ← (clauses?_eq_ok_iff.1 hcs).1, List.length_map]

/-- Clauses in range always make a formula, so the third step of the second pass cannot fail. -/
theorem exists_ofClauses {cs : List Clause} {rest : List (Nat × List Int)}
    (hcs : clauses? n rest = .ok cs) (ts : List String) : ∃ f, Formula.ofClauses n cs ts = .ok f :=
  ⟨⟨n, cs, ts, (clauses?_eq_ok_iff.1 hcs).2⟩, Formula.ofClauses_eq_ok_iff.2 ⟨rfl, rfl, rfl⟩⟩

/-- Lines without a fault in their form have items. -/
theorem exists_items_of_formed (h : Nowhere Faulty [] ls) : ∃ is, items false 1 ls = .ok is := by
  cases his : items false 1 ls with
  | ok is => exact ⟨is, rfl⟩
  | error e => exact absurd (items_error_iff.1 his) (nowhere_iff.1 h e)

theorem formed_of_items (h : items false 1 ls = .ok is) : Nowhere Faulty [] ls := by
  refine nowhere_iff.2 fun e he => ?_
  rw [← items_error_iff] at he
  exact absurd (h.symm.trans he) (by simp)

/-- What the second pass refuses items with, the first having found no fault. -/
theorem refused_of_assemble (his : items false 1 ls = .ok is) (h : assemble is = .error e) :
    Refused ls e := by
  have formed := formed_of_items his
  have hs := (scanned_of_items his).1
  unfold assemble at h
  cases hc : counts? is with
  | none =>
    rw [hc] at h
    cases h
    exact .headless formed ((counts?_eq_none_iff hs).1 hc)
  | some c =>
    obtain ⟨n, m⟩ := c
    have declared := (counts?_eq_some_iff his).1 hc
    simp only [hc] at h
    cases hcs : clauses? n (clauseLines is) with
    | error e' =>
      rw [hcs] at h
      cases h
      exact .excess formed declared ((clauses?_error_iff his).1 hcs)
    | ok cs =>
      have within : Nowhere (Excessive n) [] ls := nowhere_iff.2 fun e he => by
        rw [← clauses?_error_iff his, hcs] at he
        cases he
      obtain ⟨lists, hl, -⟩ := hs.lists
      have spelled := hl.imp fun _ _ => literals?_eq_ok_iff.1
      have hlen := length_of_clauses? hs hcs spelled
      obtain ⟨f, hf⟩ := exists_ofClauses hcs (comments is)
      simp only [hcs, hf] at h
      split at h
      · rename_i hne
        cases h
        rw [← hlen] at hne ⊢
        exact .count formed declared within spelled hne
      · cases h

theorem refused_of_ofLines (h : ofLines ls = .error e) : Refused ls e := by
  unfold ofLines at h
  cases his : items false 1 ls with
  | error e' =>
    rw [his] at h
    cases h
    exact .form (items_error_iff.1 his)
  | ok is =>
    rw [his] at h
    exact refused_of_assemble his h

theorem Refused.ofLines_eq (h : Refused ls e) : ofLines ls = .error e := by
  unfold ofLines
  cases h with
  | form first => rw [items_error_iff.2 first]
  | headless formed headless =>
    obtain ⟨is, his⟩ := exists_items_of_formed formed
    have hc := (counts?_eq_none_iff (scanned_of_items his).1).2 headless
    simp [his, assemble, hc]
  | excess formed declared first =>
    obtain ⟨is, his⟩ := exists_items_of_formed formed
    have hc := (counts?_eq_some_iff his).2 declared
    have hcs := (clauses?_error_iff his).2 first
    simp [his, assemble, hc, hcs]
  | @count n m lists formed declared within spelled other =>
    obtain ⟨is, his⟩ := exists_items_of_formed formed
    have hc := (counts?_eq_some_iff his).2 declared
    cases hcs : clauses? n (clauseLines is) with
    | error e => exact absurd ((clauses?_error_iff his).1 hcs) (nowhere_iff.1 within e)
    | ok cs =>
      have hlen := length_of_clauses? (scanned_of_items his).1 hcs spelled
      rw [hlen] at other ⊢
      simp [his, assemble, hc, hcs, other]

theorem ofLines_eq_error_iff : ofLines ls = .error e ↔ Refused ls e :=
  ⟨refused_of_ofLines, Refused.ofLines_eq⟩

/-- A refusal comes as one of three kinds of complaint, with its line and what else it tells. -/
def Reported (e : ReadError) : Prop :=
  match e with
  | .header _ line =>
    (Failure.input e).kind = "MalformedHeaderError" ∧
      (Failure.input e).details = [("line_number", Failure.lineValue line)]
  | .badToken _ line =>
    (Failure.input e).kind = "InvalidClauseError" ∧
      (Failure.input e).details = [("line_number", .int line), ("clause", .null)]
  | .undeclared _ _ clause line =>
    (Failure.input e).kind = "InvalidClauseError" ∧
      (Failure.input e).details = [("line_number", .int line), ("clause", .list (clause.map .int))]
  | .countMismatch declared parsed =>
    (Failure.input e).kind = "ClauseCountMismatchError" ∧ (Failure.input e).details =
      [("line_number", .null), ("declared", .int declared), ("parsed", .int parsed)]
  | .notText _ _ => False
  | .formula _ => False

theorem Refused.reported (h : Refused ls e) : Reported e := by
  cases h with
  | form first =>
    obtain ⟨before, line, after, -, -, fault⟩ := first
    cases fault <;> exact ⟨rfl, rfl⟩
  | headless => exact ⟨rfl, rfl⟩
  | excess formed declared first =>
    obtain ⟨before, line, after, -, -, fault⟩ := first
    cases fault
    exact ⟨rfl, rfl⟩
  | count => exact ⟨rfl, rfl⟩

end

/-- **The complaint about a text** that is no formula is the one that `Refused` determines, and there is
no other: the first line at fault by its form decides, then the lack of a problem line, then the first
clause beyond the declared variables, then the number of clauses. -/
theorem read_refuses_exactly (text : String) (e : ReadError) :
    (read .boundary text = .error e ↔ Refused (lines .boundary text.toList) e) ∧
      (Refused (lines .boundary text.toList) e → Reported e) :=
  ⟨ofLines_eq_error_iff, Refused.reported⟩

/-- A text with a fault of each kind: a bad word, an undeclared variable, too many clauses, and a second
problem line. -/
theorem read_refuses_exactly_first :
    Refused (lines .boundary "p cnf 1 1\n2 0\n1 x 0\np\n".toList) (.badToken "x" 3) ∧
      Reported (.badToken "x" 3) := by
  have hr : read .boundary "p cnf 1 1\n2 0\n1 x 0\np\n" = .error (.badToken "x" 3) := by rfl
  obtain ⟨hiff, hreported⟩ := read_refuses_exactly "p cnf 1 1\n2 0\n1 x 0\np\n" (.badToken "x" 3)
  exact ⟨hiff.1 hr, hreported (hiff.1 hr)⟩

end LocalSat.Dimacs
