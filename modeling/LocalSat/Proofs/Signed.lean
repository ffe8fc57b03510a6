import Mathlib.Data.List.Forall2
import LocalSat.Failure

/-!
# Formulas of signed integers

What becomes of a number of variables and lists of signed integers. Three things can be wrong with them,
and they are looked for one after the other in the whole of the lists: the number is negative, some list
is no clause (`Unfit`), some integer is beyond the number. Each search stops at the first find
(`IsFirst`), so `Verdict` says which of the three is told and what it is told of, and what is built if
there is nothing to tell. What is told names integers, so it cannot be told if one of them has too many
digits.

The loops are `mapM_eq_error_iff` for the clauses and `firstStray?_eq_some_iff` for their range. Main
statement: `ofSigned_builds_exactly`, with the way back from any formula.
-/

namespace LocalSat

open LocalSat.Text

/-! ## The first of a kind -/

/-- The item is the first in the list that has the property. -/
def IsFirst {α : Type} (P : α → Prop) (as : List α) (a : α) : Prop :=
  ∃ before after, as = before ++ a :: after ∧ (∀ b ∈ before, ¬ P b) ∧ P a

section
variable {α β ε : Type} {P : α → Prop} {as : List α} {a b : α}

theorem not_isFirst_nil : ¬ IsFirst P [] a := by
  rintro ⟨before, after, h, -⟩
  simp at h

theorem isFirst_cons : IsFirst P (b :: as) a ↔ (P b ∧ b = a) ∨ (¬ P b ∧ IsFirst P as a) := by
  constructor
  · rintro ⟨before, after, has, hb, ha⟩
    cases before with
    | nil =>
      obtain ⟨rfl, -⟩ : b = a ∧ as = after := by simpa using has
      exact .inl ⟨ha, rfl⟩
    | cons c before =>
      obtain ⟨rfl, htail⟩ : b = c ∧ as = before ++ a :: after := by simpa using has
      exact .inr ⟨hb b (by simp), before, after, htail, fun d hd => hb d (by simp [hd]), ha⟩
  · rintro (⟨ha, rfl⟩ | ⟨hb, before, after, rfl, hbefore, ha⟩)
    · exact ⟨[], as, rfl, by simp, ha⟩
    · exact ⟨b :: before, after, rfl, by simpa using ⟨hb, hbefore⟩, ha⟩

theorem IsFirst.mem (h : IsFirst P as a) : a ∈ as := by
  obtain ⟨before, after, rfl, -⟩ := h
  simp

theorem IsFirst.holds (h : IsFirst P as a) : P a := by
  obtain ⟨-, -, -, -, ha⟩ := h
  exact ha

theorem IsFirst.congr {Q : α → Prop} (h : IsFirst P as a) (hPQ : ∀ b ∈ as, (P b ↔ Q b)) :
    IsFirst Q as a := by
  obtain ⟨before, after, rfl, hb, ha⟩ := h
  exact ⟨before, after, rfl, fun b hmem => mt (hPQ b (by simp [hmem])).2 (hb b hmem),
    (hPQ a (by simp)).1 ha⟩

theorem find?_eq_some_iff_isFirst {p : α → Bool} :
    as.find? p = some a ↔ IsFirst (fun a => p a = true) as a := by
  simp only [List.find?_eq_some_iff_append, IsFirst, Bool.not_eq_true', Bool.not_eq_true]
  constructor
  · rintro ⟨ha, before, after, has, hb⟩
    exact ⟨before, after, has, hb, ha⟩
  · rintro ⟨before, after, has, hb, ha⟩
    exact ⟨ha, before, after, has, hb⟩

theorem isFirst_map {P : β → Prop} {g : α → β} {b : β} :
    IsFirst P (as.map g) b ↔ ∃ a, IsFirst (fun a => P (g a)) as a ∧ g a = b := by
  induction as with
  | nil => simp [not_isFirst_nil]
  | cons c as ih =>
    rw [List.map_cons, isFirst_cons, ih]
    simp only [isFirst_cons]
    constructor
    · rintro (⟨hc, rfl⟩ | ⟨hc, a, ha, rfl⟩)
      · exact ⟨c, .inl ⟨hc, rfl⟩, rfl⟩
      · exact ⟨a, .inr ⟨hc, ha⟩, rfl⟩
    · rintro ⟨a, ⟨hc, rfl⟩ | ⟨hc, ha⟩, rfl⟩
      · exact .inl ⟨hc, rfl⟩
      · exact .inr ⟨hc, a, ha, rfl⟩

/-- A loop fails with the error of the first item that has one. -/
theorem mapM_eq_error_iff {f : α → Except ε β} {e : ε} :
    as.mapM f = .error e ↔ ∃ a, IsFirst (fun a => ∃ e', f a = .error e') as a ∧ f a = .error e := by
  induction as with
  | nil => simp [not_isFirst_nil, pure, Except.pure]
  | cons c as ih =>
    rw [List.mapM_cons]
    cases hc : f c with
    | error e' =>
      simp only [bind, Except.bind, Except.error.injEq, isFirst_cons, hc]
      constructor
      · rintro rfl
        exact ⟨c, .inl ⟨⟨e', rfl⟩, rfl⟩, hc⟩
      · rintro ⟨a, ⟨-, rfl⟩ | ⟨h, -⟩, ha⟩
        · exact Except.error.inj (hc.symm.trans ha)
        · exact absurd ⟨e', rfl⟩ h
    | ok d =>
      simp only [bind, Except.bind, isFirst_cons, hc]
      cases has : as.mapM f with
      | error e' =>
        rw [has] at ih
        simp only [ih, reduceCtorEq, exists_false, false_and, not_false_eq_true, true_and, false_or]
      | ok ds =>
        rw [has] at ih
        simpa [pure, Except.pure] using ih

theorem mapM_ok_cons {f : α → Except ε β} {ds : List β} : (b :: as).mapM f = .ok ds ↔
    ∃ c cs, f b = .ok c ∧ as.mapM f = .ok cs ∧ c :: cs = ds := by
  rw [List.mapM_cons]
  cases f b with
  | error e => simp [bind, Except.bind]
  | ok c => cases as.mapM f <;> simp [bind, Except.bind, pure, Except.pure]

/-- A loop that succeeds has a result for each item. -/
theorem mapM_eq_ok_iff {f : α → Except ε β} {bs : List β} :
    as.mapM f = .ok bs ↔ List.Forall₂ (fun a b => f a = .ok b) as bs := by
  induction as generalizing bs with
  | nil => simp [pure, Except.pure, eq_comm]
  | cons a as ih =>
    simp only [mapM_ok_cons, ih, List.forall₂_cons_left_iff]
    constructor
    · rintro ⟨b, bs, hb, hbs, rfl⟩
      exact ⟨b, bs, hb, hbs, rfl⟩
    · rintro ⟨b, bs, hb, hbs, rfl⟩
      exact ⟨b, bs, hb, hbs, rfl⟩

end

/-! ## Clauses -/

/-- The integers are those of no clause: there are none, or there is a zero among them. -/
inductive Unfit : List Int → ClauseError → Prop
  | empty : Unfit [] .empty
  | zero {ns : List Int} (h : 0 ∈ ns) : Unfit ns .zero

namespace Clause

variable {ns : List Int} {e : ClauseError}

theorem literalsOfSigned_eq_error_iff : literalsOfSigned ns = .error e ↔ 0 ∈ ns ∧ e = .zero := by
  induction ns with
  | nil => simp [literalsOfSigned]
  | cons n ns ih =>
    simp only [literalsOfSigned]
    cases hn : Literal.ofSigned? n with
    | none =>
      obtain rfl : n = 0 := Literal.ofSigned?_eq_none_iff.1 hn
      simp [eq_comm]
    | some l =>
      have hne : 0 ≠ n := by
        rintro rfl
        simp [Literal.ofSigned?] at hn
      simp [map_eq_error_iff, ih, hne]

theorem ofSigned_eq_error_iff : ofSigned ns = .error e ↔ Unfit ns e := by
  unfold ofSigned
  cases hls : literalsOfSigned ns with
  | error e' =>
    obtain ⟨h0, rfl⟩ := literalsOfSigned_eq_error_iff.1 hls
    simp only [bind, Except.bind, Except.error.injEq]
    constructor
    · rintro rfl
      exact .zero h0
    · rintro (_ | _)
      · simp at h0
      · rfl
  | ok ls =>
    have h0 : 0 ∉ ns := fun h => by simp [literalsOfSigned_eq_error_iff.2 ⟨h, rfl⟩] at hls
    obtain ⟨rfl, -⟩ := literalsOfSigned_eq_ok_iff.1 hls
    simp only [bind, Except.bind, ofLiterals]
    constructor
    · intro h
      split at h
      · rename_i hnil
        cases h
        rw [hnil]
        exact .empty
      · cases h
    · intro h
      cases ls with
      | nil =>
        cases h with
        | empty => rfl
        | zero h => simp at h
      | cons l ls =>
        cases h with
        | zero h => exact absurd h h0

theorem unfit_iff : (∃ e, Unfit ns e) ↔ ns = [] ∨ 0 ∈ ns := by
  constructor
  · rintro ⟨e, _ | h⟩
    · exact .inl rfl
    · exact .inr h
  · rintro (rfl | h)
    · exact ⟨_, .empty⟩
    · exact ⟨_, .zero h⟩

theorem fit_of_ofSigned {c : Clause} (h : ofSigned ns = .ok c) : ns ≠ [] ∧ 0 ∉ ns := by
  rw [← not_or, ← unfit_iff]
  rintro ⟨e, he⟩
  rw [ofSigned_eq_error_iff.2 he] at h
  cases h

/-- The clauses of lists of integers. -/
theorem mapM_ofSigned_eq_ok_iff {lists : List (List Int)} {cs : List Clause} :
    lists.mapM ofSigned = .ok cs ↔
      cs.map toSigned = lists ∧ ∀ c ∈ cs, ∀ l ∈ c.literals, 0 ≤ l.var := by
  induction lists generalizing cs with
  | nil => cases cs <;> simp [pure, Except.pure]
  | cons ns lists ih =>
    simp only [mapM_ok_cons, ih, ofSigned_eq_ok_iff]
    constructor
    · rintro ⟨c, cs, ⟨rfl, hc⟩, ⟨rfl, hcs⟩, rfl⟩
      exact ⟨rfl, by simpa using ⟨hc, hcs⟩⟩
    · rintro ⟨h, hcs⟩
      cases cs with
      | nil => simp at h
      | cons c cs =>
        obtain ⟨rfl, rfl⟩ : c.toSigned = ns ∧ cs.map toSigned = lists := by simpa using h
        exact ⟨c, cs, ⟨rfl, hcs c (by simp)⟩, ⟨rfl, fun d hd => hcs d (by simp [hd])⟩, rfl⟩

theorem fit_of_mapM {lists : List (List Int)} {cs : List Clause} (h : lists.mapM ofSigned = .ok cs) :
    ∀ ns ∈ lists, ns ≠ [] ∧ 0 ∉ ns := by
  obtain ⟨rfl, hvar⟩ := mapM_ofSigned_eq_ok_iff.1 h
  intro ns hns
  obtain ⟨c, hc, rfl⟩ := List.mem_map.1 hns
  exact fit_of_ofSigned (ofSigned_eq_ok_iff.2 ⟨rfl, hvar c hc⟩)

end Clause

/-! ## Formulas -/

/-- The integer is beyond the variables, of which there are `n`. -/
def Beyond (n : Nat) (v : Int) : Prop := n < v.natAbs

theorem Literal.beyond_iff {n : Nat} {l : Literal} (h : 0 ≤ l.var) :
    Beyond n l.toSigned ↔ ¬ l.InRange n := by
  rw [inRange_iff h, Beyond]
  omega

namespace Formula

/-- What becomes of a number of variables and lists of signed integers. -/
inductive Verdict (n : Int) (lists : List (List Int)) : Except FormulaError Formula → Prop
  /-- The number of variables is negative. -/
  | negative (below : n < 0) (printable : Printable n) : Verdict n lists (.error (.negativeCount n))
  /-- The number of variables is negative, and has too many digits to be told. -/
  | negativeLong (below : n < 0) (long : ¬ Printable n) : Verdict n lists (.error .tooLong)
  /-- Some list is no clause; the first such list decides, whatever is beyond the variables. -/
  | unfit {ns : List Int} {e : ClauseError} (count : 0 ≤ n)
      (first : IsFirst (fun ns => ns = [] ∨ 0 ∈ ns) lists ns) (fault : Unfit ns e) :
      Verdict n lists (.error (.clause e))
  /-- Some integer is beyond the variables; the first list with one is told, and the first one in it. -/
  | beyond {m : Nat} {ns : List Int} {v : Int} {l : Literal} (count : n = m)
      (fit : ∀ ns ∈ lists, ns ≠ [] ∧ 0 ∉ ns) (first : IsFirst (fun ns => ∃ v ∈ ns, Beyond m v) lists ns)
      (here : IsFirst (Beyond m) ns v) (literal : Literal.ofSigned? v = some l)
      (printable : Printable n ∧ ∀ v ∈ ns, Printable v) : Verdict n lists (.error (.outOfRange l m ns))
  /-- Some integer is beyond the variables, and one in the first list with such has too many digits to be
  told, or the number of variables has. -/
  | beyondLong {m : Nat} {ns : List Int} (count : n = m) (fit : ∀ ns ∈ lists, ns ≠ [] ∧ 0 ∉ ns)
      (first : IsFirst (fun ns => ∃ v ∈ ns, Beyond m v) lists ns)
      (long : ¬ (Printable n ∧ ∀ v ∈ ns, Printable v)) : Verdict n lists (.error .tooLong)
  | built {f : Formula} (count : n = f.numVariables) (fit : ∀ ns ∈ lists, ns ≠ [] ∧ 0 ∉ ns)
      (within : ∀ ns ∈ lists, ∀ v ∈ ns, ¬ Beyond f.numVariables v) (signed : f.toSigned = lists)
      (uncommented : f.comments = []) : Verdict n lists (.ok f)

section
variable {n : Nat} {cs : List Clause} {c : Clause} {l : Literal}

/-- The range is checked up to the first clause with a literal out of range. -/
theorem firstStray?_eq_some_iff : firstStray? n cs = some (l, c) ↔
    IsFirst (fun c => ∃ l ∈ c.literals, ¬ l.InRange n) cs c ∧
      IsFirst (fun l => ¬ l.InRange n) c.literals l := by
  induction cs with
  | nil => simp [firstStray?, not_isFirst_nil]
  | cons d cs ih =>
    have hfind : ∀ k, d.literals.find? (fun l => !decide (l.InRange n)) = some k ↔
        IsFirst (fun l => ¬ l.InRange n) d.literals k := by
      intro k
      simp [find?_eq_some_iff_isFirst]
    simp only [firstStray?, isFirst_cons]
    cases hd : d.literals.find? (fun l => !decide (l.InRange n)) with
    | none =>
      have hin : ¬ ∃ l ∈ d.literals, ¬ l.InRange n := by simpa using hd
      simp [ih, hin]
    | some k =>
      have hk := (hfind k).1 hd
      have hout : ∃ l ∈ d.literals, ¬ l.InRange n := ⟨k, hk.mem, hk.holds⟩
      simp only [Option.some.injEq, Prod.mk.injEq, hout, true_and, not_true_eq_false, false_and,
        or_false]
      constructor
      · rintro ⟨rfl, rfl⟩
        exact ⟨rfl, hk⟩
      · rintro ⟨rfl, hl⟩
        exact ⟨Option.some.inj (hd.symm.trans ((hfind l).2 hl)), rfl⟩

end

section
variable {n : Nat} {cs : List Clause} {lists : List (List Int)} {comments : List String}

/-- All clauses are made before the range of their literals is looked at. -/
theorem build_of_clauses (h : lists.mapM Clause.ofSigned = .ok cs) :
    build Clause.ofSigned n lists comments = ofClausesIn n cs comments := by
  rw [build, if_neg (by omega), h]
  simp

/-- What the check of the range says, in terms of the integers. -/
theorem verdict_ofClausesIn (hvar : ∀ c ∈ cs, ∀ l ∈ c.literals, 0 ≤ l.var)
    (hfit : ∀ ns ∈ cs.map Clause.toSigned, ns ≠ [] ∧ 0 ∉ ns) :
    Verdict n (cs.map Clause.toSigned) (ofClausesIn n cs []) := by
  have hbeyond : ∀ c ∈ cs, (∃ l ∈ c.literals, ¬ l.InRange n) ↔ ∃ v ∈ c.toSigned, Beyond n v := by
    intro c hc
    constructor
    · rintro ⟨l, hl, hout⟩
      exact ⟨_, List.mem_map_of_mem hl, (Literal.beyond_iff (hvar c hc l hl)).2 hout⟩
    · rintro ⟨v, hv, hout⟩
      obtain ⟨l, hl, rfl⟩ := List.mem_map.1 hv
      exact ⟨l, hl, (Literal.beyond_iff (hvar c hc l hl)).1 hout⟩
  unfold ofClausesIn
  split
  · rename_i l c hstray
    obtain ⟨hc, hl⟩ := firstStray?_eq_some_iff.1 hstray
    have hliterals := hvar c hc.mem
    have hfirst : IsFirst (fun ns => ∃ v ∈ ns, Beyond n v) (cs.map Clause.toSigned) c.toSigned :=
      isFirst_map.2 ⟨c, hc.congr hbeyond, rfl⟩
    by_cases hprint : Printable n ∧ ∀ v ∈ c.toSigned, Printable v
    · rw [FormulaError.ofStray, if_pos hprint]
      refine .beyond rfl hfit hfirst (isFirst_map.2 ⟨l, ?_, rfl⟩)
        (Literal.ofSigned?_toSigned (hliterals l hl.mem)) hprint
      exact hl.congr fun k hk => (Literal.beyond_iff (hliterals k hk)).symm
    · rw [FormulaError.ofStray, if_neg hprint]
      exact .beyondLong rfl hfit hfirst hprint
  · rename_i hstray
    refine .built rfl hfit ?_ rfl rfl
    intro ns hns v hv hv'
    obtain ⟨c, hc, rfl⟩ := List.mem_map.1 hns
    obtain ⟨l, hl, hout⟩ := (hbeyond c hc).2 ⟨v, hv, hv'⟩
    exact hout (firstStray?_eq_none_iff.1 hstray c hc l hl)

/-- **What becomes of signed integers.** -/
theorem verdict (n : Int) (lists : List (List Int)) : Verdict n lists (ofSigned n lists) := by
  by_cases hn : n < 0
  · rw [ofSigned, build_of_negative hn]
    by_cases hprint : Printable n
    · rw [FormulaError.ofNegative, if_pos hprint]
      exact .negative hn hprint
    · rw [FormulaError.ofNegative, if_neg hprint]
      exact .negativeLong hn hprint
  obtain ⟨m, rfl⟩ := Int.eq_ofNat_of_zero_le (Int.not_lt.1 hn)
  cases hcs : lists.mapM Clause.ofSigned with
  | error e =>
    obtain ⟨ns, hfirst, he⟩ := mapM_eq_error_iff.1 hcs
    simp only [Clause.ofSigned_eq_error_iff, Clause.unfit_iff] at hfirst he
    rw [ofSigned, build, if_neg hn, hcs]
    exact .unfit (by omega) hfirst he
  | ok cs =>
    have hfit := Clause.fit_of_mapM hcs
    obtain ⟨rfl, hvar⟩ := Clause.mapM_ofSigned_eq_ok_iff.1 hcs
    rw [ofSigned, build_of_clauses hcs]
    exact verdict_ofClausesIn hvar hfit

end

/-! ## There and back -/

section
variable {n : Nat} {f g : Formula}

theorem mapM_toSigned (f : Formula) : f.toSigned.mapM Clause.ofSigned = .ok f.clauses :=
  Clause.mapM_ofSigned_eq_ok_iff.2 ⟨rfl, fun c hc l hl => (f.inRange c hc l hl).1⟩

/-- The formula that is built of signed integers is the one that has them. -/
theorem build_eq_ok_iff {lists : List (List Int)} {comments : List String} :
    build Clause.ofSigned n lists comments = .ok f ↔
      f.numVariables = n ∧ f.toSigned = lists ∧ f.comments = comments := by
  constructor
  · intro h
    cases hcs : lists.mapM Clause.ofSigned with
    | error e =>
      rw [build, if_neg (by omega), hcs] at h
      cases h
    | ok cs =>
      rw [build_of_clauses hcs, ofClausesIn_eq_ok_iff] at h
      obtain ⟨hn, rfl, hcomments⟩ := h
      exact ⟨hn, (Clause.mapM_ofSigned_eq_ok_iff.1 hcs).1, hcomments⟩
  · rintro ⟨rfl, rfl, rfl⟩
    rw [build_of_clauses f.mapM_toSigned, ofClausesIn_eq_ok_iff]
    exact ⟨rfl, rfl, rfl⟩

/-- Signed integers tell formulas apart. -/
theorem same_iff : f.same g ↔ f.numVariables = g.numVariables ∧ f.toSigned = g.toSigned := by
  simp only [same, Bool.and_eq_true, beq_iff_eq]
  refine and_congr_right fun _ => ⟨fun h => by rw [toSigned, h, toSigned], fun h => ?_⟩
  have hg := g.mapM_toSigned
  rw [← h, f.mapM_toSigned] at hg
  exact Except.ok.inj hg

theorem of_ofSigned_eq_ok {n : Int} {lists : List (List Int)} (h : ofSigned n lists = .ok f) :
    (f.numVariables : Int) = n ∧ f.toSigned = lists := by
  have hv := verdict n lists
  rw [h] at hv
  cases hv with
  | built count _ _ signed => exact ⟨count.symm, signed⟩

end

/-- How the errors about a number of variables and clauses are shown. -/
def Reported (e : FormulaError) : Prop :=
  match e with
  | .negativeCount _ | .tooLong | .clause .tooLong => (Failure.formula e).kind = "ValueError"
  | .clause _ => (Failure.formula e).kind = "InvalidClauseError"
  | .outOfRange _ _ ns => (Failure.formula e).kind = "InvalidClauseError" ∧
      (Failure.formula e).details = [("line_number", .null), ("clause", .list (ns.map .int))]

theorem reported (e : FormulaError) : Reported e := by
  cases e with
  | negativeCount n | tooLong => rfl
  | clause e => cases e <;> rfl
  | outOfRange l n ns => exact ⟨rfl, rfl⟩

/-- **Formulas of signed integers.** A number of variables and lists of integers become what `Verdict`
says and nothing else, a negative number whatever the clauses would be made of and how. Errors about
integers of too many digits are reported without them. What is built has these integers, so two formulas
that are built are the same exactly if their numbers and their lists are equal; and every formula is built
again of its own integers. -/
theorem ofSigned_builds_exactly :
    (∀ n lists, Verdict n lists (ofSigned n lists)) ∧ (∀ e, Reported e) ∧
    (∀ n < 0, ∀ (make : List Int → Except ClauseError Clause) lists comments,
      build make n lists comments = .error (.ofNegative n)) ∧
    (∀ n m lists lists' f g, ofSigned n lists = .ok f → ofSigned m lists' = .ok g →
      (f.same g ↔ n = m ∧ lists = lists')) ∧
    ∀ f : Formula, ∃ g, ofSigned f.numVariables f.toSigned = .ok g ∧ g.same f := by
  refine ⟨verdict, reported, ?_, ?_, fun f => ?_⟩
  · intro n hn make lists comments
    exact build_of_negative hn lists comments
  · intro n m lists lists' f g hf hg
    obtain ⟨rfl, rfl⟩ := of_ofSigned_eq_ok hf
    obtain ⟨rfl, rfl⟩ := of_ofSigned_eq_ok hg
    rw [same_iff, Int.natCast_inj]
  · refine ⟨{ f with comments := [] }, build_eq_ok_iff.2 ⟨rfl, rfl, rfl⟩, ?_⟩
    exact same_iff.2 ⟨rfl, rfl⟩

/-- A zero in a later list is told before an integer beyond the variables in an earlier one. -/
theorem ofSigned_builds_exactly_late :
    Verdict 2 [[1, -3], [2, 0]] (.error (.clause .zero)) ∧
      Verdict 2 [[1, -2], [2, -4]] (.error (.outOfRange ⟨3, true⟩ 2 [2, -4])) ∧
      ∀ f g, ofSigned 2 [[1], [-1]] = .ok f → ofSigned 2 [[-1], [1]] = .ok g → ¬ f.same g := by
  obtain ⟨hverdict, -, -, hsame, -⟩ := ofSigned_builds_exactly
  have hbuilt : ofSigned 2 [[1, -2], [2, -4]] = .error (.outOfRange ⟨3, true⟩ 2 [2, -4]) := by
    decide +kernel
  refine ⟨hverdict 2 [[1, -3], [2, 0]], hbuilt ▸ hverdict 2 [[1, -2], [2, -4]], ?_⟩
  intro f g hf hg
  rw [hsame 2 2 _ _ f g hf hg]
  decide

/-- An integer beyond the variables that has too many digits is not told. -/
theorem ofSigned_long : ofSigned 1 [[(beyondDigits : Int)]] = .error .tooLong ∧
    (Failure.formula .tooLong).kind ≠ "InvalidClauseError" := by
  refine ⟨?_, by decide⟩
  have hv := verdict 1 [[(beyondDigits : Int)]]
  have hone : 1 < beyondDigits := (by decide +kernel : Printable 1)
  generalize ofSigned 1 [[(beyondDigits : Int)]] = answer at hv
  cases hv with
  | negative below | negativeLong below => exact absurd below (by decide)
  | unfit _ first fault =>
    have hmem := first.mem
    have hholds := first.holds
    simp only [List.mem_singleton] at hmem
    subst hmem
    simp only [List.cons_ne_nil, List.mem_singleton, false_or] at hholds
    omega
  | beyond _ _ first _ _ printable =>
    have hmem := first.mem
    simp only [List.mem_singleton] at hmem
    subst hmem
    exact absurd (printable.2 _ (by simp)) not_printable_beyondDigits
  | beyondLong => rfl
  | built count _ within =>
    have hin := within [(beyondDigits : Int)] List.mem_cons_self beyondDigits List.mem_cons_self
    rw [Beyond, Int.natAbs_natCast] at hin
    omega

end Formula

end LocalSat
