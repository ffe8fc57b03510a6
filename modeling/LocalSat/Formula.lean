import LocalSat.Literal
import LocalSat.Value.Display

/-!
# Clauses and formulas

A clause is a non-empty disjunction of literals, a formula an ordered collection of clauses over a
declared number of variables. Both carry their invariant, so a formula that exists has only literals in
range; `Clause.ofLiterals` and `Formula.ofClauses` check it and say what is wrong. The comments of a
formula are carried along and do not count for `Formula.same`.

| here | there |
| --- | --- |
| `Clause.ofLiterals`, `Clause.ofMembers` | the constructor of `Clause` |
| `Clause.ofSigned`, `Clause.toSigned`, `Clause.vars` | `from_dimacs`, `to_dimacs`, `variables` of a `Clause` |
| `Formula.build`, with `firstStray?` as its last loop | the constructor of `Formula` |
| `Formula.ofSigned`, `Formula.toSigned` | `from_dimacs_clauses`, `to_dimacs_clauses` |
-/

namespace LocalSat

theorem map_eq_ok_iff {ε α β : Type} {f : α → β} {x : Except ε α} {b : β} :
    x.map f = .ok b ↔ ∃ a, x = .ok a ∧ f a = b := by
  cases x <;> simp [Except.map]

theorem map_eq_error_iff {ε α β : Type} {f : α → β} {x : Except ε α} {e : ε} :
    x.map f = .error e ↔ x = .error e := by
  cases x <;> simp [Except.map]

/-! ## Clauses -/

/-- What makes a list of members no clause. -/
inductive ClauseError where
  /-- There are no members. -/
  | empty
  /-- A member is the integer zero. -/
  | zero
  /-- A member is not a literal; the members are kept as a message shows them. -/
  | notLiterals (members : String)
  /-- A member is not a literal, and a number in one of them is too long to be shown. -/
  | tooLong
deriving DecidableEq, Repr

/-- A non-empty disjunction of literals. -/
structure Clause where
  literals : List Literal
  nonempty : literals ≠ []
deriving DecidableEq, Repr

namespace Clause

/-- The clause of the given literals. -/
def ofLiterals (ls : List Literal) : Except ClauseError Clause :=
  if h : ls = [] then .error .empty else .ok ⟨ls, h⟩

/-- The literals of signed integers; the first zero is an error. -/
def literalsOfSigned : List Int → Except ClauseError (List Literal)
  | [] => .ok []
  | n :: ns =>
    match Literal.ofSigned? n with
    | none => .error .zero
    | some l => (literalsOfSigned ns).map (l :: ·)

/-- The clause of signed integers. -/
def ofSigned (ns : List Int) : Except ClauseError Clause :=
  literalsOfSigned ns >>= ofLiterals

/-- The signed integers of a clause. -/
def toSigned (c : Clause) : List Int := c.literals.map Literal.toSigned

/-- The variables of a clause, in literal order. -/
def vars (c : Clause) : List Int := c.literals.map Literal.var

/-- The clause by its signed integers. -/
def describe (c : Clause) : String := "Clause(" ++ Value.integerList c.toSigned ++ ")"

theorem literalsOfSigned_cons {n : Int} {ns : List Int} {ls : List Literal} :
    literalsOfSigned (n :: ns) = .ok ls ↔
      ∃ l, Literal.ofSigned? n = some l ∧ ∃ ks, literalsOfSigned ns = .ok ks ∧ l :: ks = ls := by
  simp only [literalsOfSigned]
  cases Literal.ofSigned? n <;> simp [map_eq_ok_iff]

theorem literalsOfSigned_eq_ok_iff {ns : List Int} {ls : List Literal} :
    literalsOfSigned ns = .ok ls ↔ ls.map Literal.toSigned = ns ∧ ∀ l ∈ ls, 0 ≤ l.var := by
  induction ns generalizing ls with
  | nil => cases ls <;> simp [literalsOfSigned]
  | cons n ns ih =>
    simp only [literalsOfSigned_cons, Literal.ofSigned?_eq_some_iff, ih]
    constructor
    · rintro ⟨l, ⟨rfl, hl⟩, ks, ⟨rfl, hks⟩, rfl⟩
      exact ⟨rfl, by simpa using ⟨hl, hks⟩⟩
    · rintro ⟨h, hls⟩
      cases ls with
      | nil => cases h
      | cons l ks =>
        cases h
        exact ⟨l, ⟨rfl, hls l (by simp)⟩, ks, ⟨rfl, fun k hk => hls k (by simp [hk])⟩, rfl⟩

theorem ofSigned_eq_ok_iff {ns : List Int} {c : Clause} :
    ofSigned ns = .ok c ↔ c.toSigned = ns ∧ ∀ l ∈ c.literals, 0 ≤ l.var := by
  rw [toSigned, ← literalsOfSigned_eq_ok_iff, ofSigned]
  cases literalsOfSigned ns with
  | error e => simp [bind, Except.bind]
  | ok ls =>
    simp only [bind, Except.bind, ofLiterals, Except.ok.injEq]
    split <;> rename_i h
    · simp [h, c.nonempty.symm]
    · cases c; simp

theorem exists_literalsOfSigned : ∀ {ns : List Int}, 0 ∉ ns → ∃ ls, literalsOfSigned ns = .ok ls
  | [], _ => ⟨[], rfl⟩
  | n :: ns, h => by
    obtain ⟨hn, hns⟩ : n ≠ 0 ∧ 0 ∉ ns := by simpa [eq_comm] using h
    obtain ⟨l, hl⟩ := Literal.exists_ofSigned? hn
    obtain ⟨ls, hls⟩ := exists_literalsOfSigned hns
    exact ⟨l :: ls, literalsOfSigned_cons.2 ⟨l, hl, ls, hls, rfl⟩⟩

theorem exists_ofSigned {ns : List Int} (hne : ns ≠ []) (h : 0 ∉ ns) : ∃ c, ofSigned ns = .ok c := by
  obtain ⟨ls, hls⟩ := exists_literalsOfSigned h
  have hl : ls ≠ [] := by
    rintro rfl
    exact hne (literalsOfSigned_eq_ok_iff.1 hls).1.symm
  exact ⟨⟨ls, hl⟩, by simp [ofSigned, hls, bind, Except.bind, ofLiterals, hl]⟩

end Clause

/-- A prospective member of a clause. -/
inductive Member where
  | literal (l : Literal)
  | other (v : Value)

namespace Member

/-- A member as a message shows it. -/
def describe : Member → String
  | literal l => l.describe
  | other v => v.quote

/-- The literals of members that are all literals. -/
def literals? : List Member → Option (List Literal)
  | [] => some []
  | literal l :: ms => (literals? ms).map (l :: ·)
  | other _ :: _ => none

/-- Whether every integer in a member can be printed. -/
def printable : Member → Bool
  | literal l => decide (Text.Printable l.var)
  | other v => v.printable

/-- Members between parentheses; a single one is followed by a comma. -/
def describeAll (ms : List Member) : String :=
  match ms with
  | [m] => "(" ++ m.describe ++ ",)"
  | ms => "(" ++ String.intercalate ", " (ms.map describe) ++ ")"

end Member

/-- The clause of members that may turn out not to be literals. -/
def Clause.ofMembers (ms : List Member) : Except ClauseError Clause :=
  match Member.literals? ms with
  | some ls => Clause.ofLiterals ls
  | none =>
    .error (if ms.all Member.printable then .notLiterals (Member.describeAll ms) else .tooLong)

/-! ## Formulas -/

/-- What makes a number and clauses no formula. -/
inductive FormulaError where
  /-- The number of variables is negative. -/
  | negativeCount (n : Int)
  | clause (e : ClauseError)
  /-- A literal of the clause has a variable beyond the declared number. -/
  | outOfRange (l : Literal) (n : Nat) (clause : List Int)
  /-- What is wrong cannot be told, because a number in the message is too long to be shown. -/
  | tooLong
deriving DecidableEq, Repr

/-- The error about a number of variables that is negative. -/
def FormulaError.ofNegative (n : Int) : FormulaError :=
  if Text.Printable n then .negativeCount n else .tooLong

/-- The error about a literal of the clause that is out of range; the message names the literal, the
number of variables and all of the clause. -/
def FormulaError.ofStray (l : Literal) (n : Nat) (c : Clause) : FormulaError :=
  if Text.Printable n ∧ ∀ v ∈ c.toSigned, Text.Printable v then .outOfRange l n c.toSigned else .tooLong

/-- Whether a literal's variable is among the first `n`. -/
def Literal.InRange (n : Nat) (l : Literal) : Prop := 0 ≤ l.var ∧ l.var < n

instance (n : Nat) (l : Literal) : Decidable (l.InRange n) :=
  inferInstanceAs (Decidable (_ ∧ _))

theorem Literal.inRange_iff {n : Nat} {l : Literal} (h : 0 ≤ l.var) :
    l.InRange n ↔ l.toSigned.natAbs ≤ n := by
  have := l.natAbs_toSigned h
  unfold InRange
  omega

theorem Clause.ofSigned_inRange_iff {n : Nat} {ns : List Int} {c : Clause} :
    (ofSigned ns = .ok c ∧ ∀ v ∈ ns, v.natAbs ≤ n) ↔
      c.toSigned = ns ∧ ∀ l ∈ c.literals, l.InRange n := by
  rw [ofSigned_eq_ok_iff]
  constructor
  · rintro ⟨⟨rfl, hv⟩, hr⟩
    exact ⟨rfl, fun l hl => (Literal.inRange_iff (hv l hl)).2 (hr _ (List.mem_map_of_mem hl))⟩
  · rintro ⟨rfl, hr⟩
    refine ⟨⟨rfl, fun l hl => (hr l hl).1⟩, fun v hv => ?_⟩
    obtain ⟨l, hl, rfl⟩ := List.mem_map.1 hv
    exact (Literal.inRange_iff (hr l hl).1).1 (hr l hl)

/-- Ordered clauses over `numVariables` variables. -/
structure Formula where
  numVariables : Nat
  clauses : List Clause
  comments : List String
  inRange : ∀ c ∈ clauses, ∀ l ∈ c.literals, l.InRange numVariables
deriving DecidableEq, Repr

namespace Formula

/-- The first literal out of range, with its clause. -/
def firstStray? (n : Nat) : List Clause → Option (Literal × Clause)
  | [] => none
  | c :: cs =>
    match c.literals.find? (fun l => !decide (l.InRange n)) with
    | some l => some (l, c)
    | none => firstStray? n cs

theorem inRange_of_firstStray? {n : Nat} :
    ∀ {cs : List Clause}, firstStray? n cs = none → ∀ c ∈ cs, ∀ l ∈ c.literals, l.InRange n
  | [], _, _, hc, _, _ => by simp at hc
  | d :: ds, h, c, hc, l, hl => by
    unfold firstStray? at h
    split at h
    · simp at h
    · rename_i hd
      rcases List.mem_cons.1 hc with rfl | hc
      · simpa using List.find?_eq_none.1 hd l hl
      · exact inRange_of_firstStray? h c hc l hl

theorem firstStray?_eq_none_iff {n : Nat} {cs : List Clause} :
    firstStray? n cs = none ↔ ∀ c ∈ cs, ∀ l ∈ c.literals, l.InRange n := by
  refine ⟨inRange_of_firstStray?, fun h => ?_⟩
  induction cs with
  | nil => rfl
  | cons c cs ih =>
    have hc : c.literals.find? (fun l => !decide (l.InRange n)) = none :=
      List.find?_eq_none.2 fun l hl => by simpa using h c (by simp) l hl
    simp only [firstStray?, hc]
    exact ih fun d hd => h d (by simp [hd])

/-- The formula of `n` variables and clauses that are already clauses. -/
def ofClausesIn (n : Nat) (cs : List Clause) (comments : List String) : Except FormulaError Formula :=
  match h : firstStray? n cs with
  | some (l, c) => .error (.ofStray l n c)
  | none => .ok ⟨n, cs, comments, inRange_of_firstStray? h⟩

/-- The formula whose clauses come from `items`, each made into a clause by `make`. The number of
variables is checked before any clause, and all clauses before the range of their literals. -/
def build {α : Type} (make : α → Except ClauseError Clause) (n : Int) (items : List α)
    (comments : List String) : Except FormulaError Formula :=
  if n < 0 then .error (.ofNegative n)
  else match items.mapM make with
    | .error e => .error (.clause e)
    | .ok cs => ofClausesIn n.toNat cs comments

/-- The formula of a number of variables and clauses. -/
def ofClauses (n : Int) (cs : List Clause) (comments : List String) : Except FormulaError Formula :=
  build .ok n cs comments

/-- The formula of a number of variables and lists of signed integers. -/
def ofSigned (n : Int) (lists : List (List Int)) : Except FormulaError Formula :=
  build Clause.ofSigned n lists []

/-- The clauses as lists of signed integers. -/
def toSigned (f : Formula) : List (List Int) := f.clauses.map Clause.toSigned

/-- Number of clauses. -/
def size (f : Formula) : Nat := f.clauses.length

theorem length_toSigned (f : Formula) : f.toSigned.length = f.size :=
  List.length_map _

theorem ne_nil_of_mem_toSigned {f : Formula} {vs : List Int} (hvs : vs ∈ f.toSigned) : vs ≠ [] := by
  obtain ⟨c, -, rfl⟩ := List.mem_map.1 hvs
  simpa [Clause.toSigned] using c.nonempty

theorem filter_toSigned (f : Formula) : f.toSigned.filter (· ≠ []) = f.toSigned :=
  List.filter_eq_self.2 fun _ hvs => by simpa using ne_nil_of_mem_toSigned hvs

theorem zero_not_mem_of_mem_toSigned {f : Formula} {vs : List Int} (hvs : vs ∈ f.toSigned) :
    0 ∉ vs := by
  obtain ⟨c, hc, rfl⟩ := List.mem_map.1 hvs
  intro h0
  obtain ⟨l, hl, hz⟩ := List.mem_map.1 h0
  have := l.natAbs_toSigned (f.inRange c hc l hl).1
  have := (f.inRange c hc l hl).1
  omega

theorem natAbs_le_of_mem_toSigned {f : Formula} {vs : List Int} {v : Int} (hvs : vs ∈ f.toSigned)
    (hv : v ∈ vs) : v.natAbs ≤ f.numVariables := by
  obtain ⟨c, hc, rfl⟩ := List.mem_map.1 hvs
  obtain ⟨l, hl, rfl⟩ := List.mem_map.1 hv
  have hr := f.inRange c hc l hl
  exact (Literal.inRange_iff hr.1).1 hr

/-- Whether two formulas agree in everything but their comments. -/
def same (f g : Formula) : Bool := f.numVariables == g.numVariables && f.clauses == g.clauses

/-- The formula by its two sizes. -/
def describe (f : Formula) : String :=
  "Formula(num_variables=" ++ toString f.numVariables ++ ", clauses=" ++ toString f.size ++ ")"

/-! ### What is built -/

theorem exists_clauses {n : Nat} : ∀ {lists : List (List Int)},
    (∀ vs ∈ lists, vs ≠ [] ∧ 0 ∉ vs ∧ ∀ v ∈ vs, v.natAbs ≤ n) →
    ∃ cs : List Clause, cs.map Clause.toSigned = lists ∧
      ∀ c ∈ cs, ∀ l ∈ c.literals, l.InRange n
  | [], _ => ⟨[], rfl, by simp⟩
  | vs :: lists, h => by
    obtain ⟨hne, h0, hr⟩ := h vs (by simp)
    obtain ⟨c, hc⟩ := Clause.exists_ofSigned hne h0
    obtain ⟨hs, hl⟩ := Clause.ofSigned_inRange_iff.1 ⟨hc, hr⟩
    obtain ⟨cs, hcs, hls⟩ := exists_clauses fun ws hw => h ws (List.mem_cons_of_mem vs hw)
    exact ⟨c :: cs, by simp [hs, hcs], by simpa using ⟨hl, hls⟩⟩

theorem ofClausesIn_eq_ok_iff {n : Nat} {cs : List Clause} {comments : List String} {f : Formula} :
    ofClausesIn n cs comments = .ok f ↔
      f.numVariables = n ∧ f.clauses = cs ∧ f.comments = comments := by
  obtain ⟨nv, ds, ts, hr⟩ := f
  unfold ofClausesIn
  split <;> rename_i h
  · constructor
    · simp
    · rintro ⟨rfl, rfl, rfl⟩
      rw [firstStray?_eq_none_iff.2 hr] at h
      cases h
  · simp [eq_comm]

theorem build_of_negative {α : Type} {make : α → Except ClauseError Clause} {n : Int} (h : n < 0)
    (items : List α) (comments : List String) :
    build make n items comments = .error (.ofNegative n) := by
  rw [build, if_pos h]

/-- Of a natural number of variables nothing is refused but an item that is no clause, or a literal out
of range. -/
theorem build_error {α : Type} {make : α → Except ClauseError Clause} {n : Nat} {items : List α}
    {comments : List String} {e : FormulaError} (he : build make n items comments = .error e) :
    (∃ ce, items.mapM make = .error ce ∧ e = .clause ce) ∨
      ∃ cs l c, items.mapM make = .ok cs ∧ firstStray? n cs = some (l, c) ∧ e = .ofStray l n c := by
  rw [build, if_neg (by omega)] at he
  cases hm : items.mapM make with
  | error ce =>
    rw [hm] at he
    cases he
    exact .inl ⟨ce, rfl, rfl⟩
  | ok cs =>
    simp only [hm, Int.toNat_natCast] at he
    unfold ofClausesIn at he
    split at he
    · rename_i l c hstray
      cases he
      exact .inr ⟨cs, l, c, rfl, hstray, rfl⟩
    · cases he

theorem ofClauses_eq_ok_iff {n : Nat} {cs : List Clause} {comments : List String} {f : Formula} :
    ofClauses n cs comments = .ok f ↔
      f.numVariables = n ∧ f.clauses = cs ∧ f.comments = comments := by
  have hm : cs.mapM (fun c => (Except.ok c : Except ClauseError Clause)) = .ok cs := by
    simpa [pure, Except.pure] using List.mapM_pure (m := Except ClauseError) (l := cs) (f := id)
  have hn : ¬ (n : Int) < 0 := by omega
  rw [ofClauses, build, if_neg hn]
  simp only [hm, Int.toNat_natCast]
  exact ofClausesIn_eq_ok_iff

end Formula

end LocalSat
