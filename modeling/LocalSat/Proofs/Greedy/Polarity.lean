import LocalSat.Proofs.Greedy.Step

/-!
# Polarity

To mirror a formula at a set of variables is to negate every literal over them; to mirror values is to
complement what these variables hold. Mirrored values make the mirrored literals true that the values
make true (`Literal.holds_mirror`), so they falsify the same clauses (`falsified_mirror`) and offer the
same candidates. Where every variable has a truth value, each candidate has one flip, and the flips of the
mirrored values are the mirrored flips (`flips_mirror`). From there everything that the greedy search does
commutes with the mirror: what it scores, selects, makes, takes back and closes (`step_mirror`). Main
statement: runs of rounds that start in mirrored values stay mirrored (`polarity_symmetric`), so that the
search has no bias for true or for false.

A variable without a value is offered its two values with true first, in either formula; that is why the
values have to be total.
-/

namespace LocalSat

variable (X : Finset Int)

/-! ## What is mirrored -/

/-- What a variable holds, complemented if the variable is in the set. -/
def turn (i : Int) (x : Option Bool) : Option Bool := x.map (· ^^ decide (i ∈ X))

/-- The literal, negated if its variable is in the set. -/
def Literal.mirror (l : Literal) : Literal := ⟨l.var, l.negated ^^ decide (l.var ∈ X)⟩

/-- The clause of the mirrored literals. -/
def Clause.mirror (c : Clause) : Clause where
  literals := c.literals.map (Literal.mirror X)
  nonempty := by simpa using c.nonempty

/-- The formula of the mirrored clauses. -/
def Formula.mirror (f : Formula) : Formula where
  numVariables := f.numVariables
  clauses := f.clauses.map (Clause.mirror X)
  comments := f.comments
  inRange := by
    intro d hd k hk
    obtain ⟨c, hc, rfl⟩ := List.mem_map.1 hd
    obtain ⟨l, hl, rfl⟩ := List.mem_map.1 hk
    exact f.inRange c hc l hl

/-- The values with those of the set complemented. -/
def mirrorValues (vs : Values) : Values := vs.mapIdx fun i x => turn X i x

/-- The octet of a variable, 0 and 1 changing places if the variable is in the set. -/
def mirrorOctet (i : Int) (o : UInt8) : UInt8 :=
  if i ∈ X then (if o = 0 then 1 else if o = 1 then 0 else o) else o

/-- The fingerprint with the octets of the set mirrored. -/
def mirrorKey (k : Fingerprint) : Fingerprint := k.mapIdx fun i o => mirrorOctet X i o

/-- The change with what it replaced complemented, if its variable is in the set. -/
def Change.mirror (c : Change) : Change := ⟨c.var, turn X c.var c.previous⟩

/-- The move to the complement of its truth value, if its variable is in the set. -/
def Move.mirror (m : Move) : Move :=
  match m.value.truth with
  | some b => Assignment.assigning m.var (b ^^ decide (m.var ∈ X))
  | none => m

/-- The mirrored values with the mirrored history. -/
def Assignment.mirror (a : Assignment) : Assignment :=
  ⟨mirrorValues X a.values, a.history.map (Change.mirror X)⟩

section
variable {X}

/-! ## Values and fingerprints -/

@[simp] theorem size_mirrorValues (vs : Values) : (mirrorValues X vs).size = vs.size :=
  Array.size_mapIdx

theorem valuation_mirrorValues (vs : Values) {i : Int} (h0 : 0 ≤ i) :
    valuation (mirrorValues X vs) i = turn X i (valuation vs i) := by
  have hi : (i.toNat : Int) = i := Int.toNat_of_nonneg h0
  simp only [valuation, mirrorValues, Array.getD_eq_getD_getElem?, Array.getElem?_mapIdx, hi]
  cases vs[i.toNat]? <;> rfl

theorem mirrorValues_set (vs : Values) {i : Int} (h0 : 0 ≤ i) (x : Option Bool) :
    mirrorValues X (vs.setIfInBounds i.toNat x) =
      (mirrorValues X vs).setIfInBounds i.toNat (turn X i x) := by
  have hi : (i.toNat : Int) = i := Int.toNat_of_nonneg h0
  simp only [mirrorValues, Array.mapIdx_setIfInBounds, hi]

theorem mirrorOctet_octet (i : Int) (x : Option Bool) :
    mirrorOctet X i (Assignment.octet x) = Assignment.octet (turn X i x) := by
  by_cases hi : i ∈ X
  · rcases x with _ | _ | _ <;> simp [mirrorOctet, turn, Assignment.octet, hi]
  · simp [mirrorOctet, turn, hi]

theorem mirrorOctet_mirrorOctet (i : Int) (o : UInt8) : mirrorOctet X i (mirrorOctet X i o) = o := by
  unfold mirrorOctet
  by_cases hi : i ∈ X
  · by_cases h0 : o = 0
    · simp [hi, h0]
    · by_cases h1 : o = 1 <;> simp [hi, h0, h1]
  · simp [hi]

/-- Fingerprints mirrored twice are the fingerprints. -/
theorem mirrorKey_mirrorKey (k : Fingerprint) : mirrorKey X (mirrorKey X k) = k := by
  apply List.ext_getElem?
  intro i
  simp only [mirrorKey, List.getElem?_mapIdx, Option.map_map]
  cases k[i]? <;> simp [mirrorOctet_mirrorOctet]

/-- **The mirrored fingerprint** is that of the mirrored values. -/
theorem mirrorKey_key (vs : Values) :
    mirrorKey X (Assignment.key vs) = Assignment.key (mirrorValues X vs) := by
  apply List.ext_getElem?
  intro i
  simp only [mirrorKey, Assignment.key, mirrorValues, List.getElem?_mapIdx, List.getElem?_map,
    Array.getElem?_toList, Array.getElem?_mapIdx, Option.map_map]
  cases vs[i]? <;> simp [mirrorOctet_octet]

/-! ## Truth -/

theorem Literal.holds_mirror {l : Literal} (vs : Values) (h0 : 0 ≤ l.var) :
    (l.mirror X).Holds (valuation (mirrorValues X vs)) ↔ l.Holds (valuation vs) := by
  have hv : valuation (mirrorValues X vs) (l.mirror X).var = turn X l.var (valuation vs l.var) :=
    valuation_mirrorValues vs h0
  unfold Literal.Holds
  rw [hv]
  cases valuation vs l.var with
  | none => simp [turn]
  | some b =>
    by_cases hl : l.var ∈ X
    · simp [turn, Literal.mirror, hl]
    · simp [turn, Literal.mirror, hl]

theorem Clause.holds_mirror {c : Clause} (vs : Values) (h : ∀ l ∈ c.literals, 0 ≤ l.var) :
    (c.mirror X).Holds (valuation (mirrorValues X vs)) ↔ c.Holds (valuation vs) := by
  constructor
  · rintro ⟨k, hk, hkv⟩
    obtain ⟨l, hl, rfl⟩ := List.mem_map.1 hk
    exact ⟨l, hl, (Literal.holds_mirror vs (h l hl)).1 hkv⟩
  · rintro ⟨l, hl, hlv⟩
    exact ⟨l.mirror X, List.mem_map_of_mem hl, (Literal.holds_mirror vs (h l hl)).2 hlv⟩

@[simp] theorem Clause.vars_mirror (c : Clause) : (c.mirror X).vars = c.vars := by
  simp [Clause.vars, Clause.mirror, Literal.mirror]

namespace Formula

/-- **Mirrored values falsify the mirrored clauses**, in their order. -/
theorem falsified_mirror (f : Formula) (vs : Values) :
    (f.mirror X).falsified (valuation (mirrorValues X vs)) =
      (f.falsified (valuation vs)).map (Clause.mirror X) := by
  simp only [falsified, mirror, List.filter_map]
  congr 1
  apply List.filter_congr
  intro c hc
  have hholds := Clause.holds_mirror (X := X) vs fun l hl => (f.inRange c hc l hl).1
  simp [hholds]

theorem candidates_mirror {f : Formula} {a : Assignment} (h : a.size = f.numVariables) :
    (f.mirror X).candidates (a.mirror X).look = f.candidates a.look := by
  have hs : (a.mirror X).size = (f.mirror X).numVariables := (size_mirrorValues a.values).trans h
  have hv : (a.mirror X).values = mirrorValues X a.values := rfl
  rw [candidates_falsified h, candidates_falsified hs, hv, falsified_mirror]
  simp only [List.flatMap_map, Clause.vars_mirror]

end Formula

/-! ## Moving -/

theorem Move.mirror_assigning (i : Int) (b : Bool) :
    (Assignment.assigning i b).mirror X = Assignment.assigning i (b ^^ decide (i ∈ X)) := by
  rw [Move.mirror, Assignment.truth_assigning]
  rfl

@[simp] theorem Move.var_mirror (m : Move) : (m.mirror X).var = m.var := by
  unfold Move.mirror
  split <;> rfl

theorem Move.truth_mirror (m : Move) :
    (m.mirror X).value.truth = turn X m.var m.value.truth := by
  unfold Move.mirror
  cases h : m.value.truth with
  | none => simpa [turn] using h
  | some b => exact Assignment.truth_assigning m.var _

namespace Assignment

/-- Every variable has a truth value, and had one before each move. -/
structure Whole (n : Nat) (a : Assignment) : Prop where
  size : a.size = n
  total : ∀ i : Int, 0 ≤ i → i < n → (valuation a.values i).isSome
  history : ∀ c ∈ a.history, 0 ≤ c.var ∧ c.var < n ∧ c.previous.isSome

section
variable {n : Nat} {a b : Assignment} {i : Int}

theorem isTotal_ofBools (bs : List Bool) : (ofBools bs).isTotal = true := by
  simp [isTotal, ofBools]

theorem whole_of_isTotal (hs : a.size = n) (ht : a.isTotal = true) (hh : a.history = []) :
    a.Whole n := by
  refine ⟨hs, fun i h0 hlt => ?_, by simp [hh]⟩
  have hi : i.toNat < a.values.size := by
    have : a.values.size = n := hs
    omega
  have hsome := Array.all_eq_true.1 ht i.toNat hi
  simpa [valuation, hi] using hsome

theorem Whole.lt_size (ha : a.Whole n) (h : i < n) : i < a.size := by
  rw [ha.size]
  exact h

/-- Setting a variable in range to a truth value leaves no variable without one. -/
theorem Whole.set (ha : a.Whole n) (h0 : 0 ≤ i) (h : i < n) {x : Option Bool} (hx : x.isSome)
    {history : List Change} (hh : ∀ c ∈ history, 0 ≤ c.var ∧ c.var < n ∧ c.previous.isSome) :
    (⟨a.values.setIfInBounds i.toNat x, history⟩ : Assignment).Whole n := by
  have hs : a.values.size = n := ha.size
  refine ⟨by simp [Assignment.size, hs], fun j hj0 hj => ?_, hh⟩
  rw [valuation_set h0 (by rw [hs]; exact h) hj0]
  by_cases hji : j = i
  · simpa [hji] using hx
  · simpa [hji] using ha.total j hj0 hj

theorem Whole.apply {m : Move} (ha : a.Whole n) (h0 : 0 ≤ m.var) (h : m.var < n)
    (hm : m.value.truth.isSome) (hb : a.apply m = .ok b) : b.Whole n := by
  rw [apply_eq h0 (ha.lt_size h), Except.ok.injEq] at hb
  subst hb
  refine ha.set h0 h hm fun c hc => ?_
  rcases List.mem_cons.1 hc with rfl | hc
  · exact ⟨h0, h, ha.total m.var h0 h⟩
  · exact ha.history c hc

/-- **A mirrored move** leads from mirrored values to mirrored values. -/
theorem exists_apply_mirror {m : Move} (ha : a.Whole n) (h0 : 0 ≤ m.var) (h : m.var < n) :
    ∃ b, a.apply m = .ok b ∧ (a.mirror X).apply (m.mirror X) = .ok (b.mirror X) := by
  have hlt := ha.lt_size h
  have h0' : 0 ≤ (m.mirror X).var := by simpa using h0
  have hlt' : (m.mirror X).var < (a.mirror X).size := by
    simpa [mirror, Assignment.size] using hlt
  refine ⟨_, apply_eq h0 hlt, ?_⟩
  rw [apply_eq h0' hlt']
  simp only [mirror, Move.var_mirror, Move.truth_mirror, mirrorValues_set a.values h0,
    valuation_mirrorValues a.values h0, List.map_cons, Change.mirror]

theorem undo?_mirror (ha : a.Whole n) : (a.mirror X).undo? = a.undo?.map (mirror X) := by
  obtain ⟨vs, history⟩ := a
  cases history with
  | nil => rfl
  | cons c rest =>
    obtain ⟨h0, h, -⟩ := ha.history c List.mem_cons_self
    have hs : vs.size = n := ha.size
    have hw := write_eq (a := ⟨vs, c :: rest⟩) h0 (by simpa [Assignment.size, hs] using h) c.previous
    have hw' := write_eq (a := ⟨mirrorValues X vs, (c :: rest).map (Change.mirror X)⟩) h0
      (by simpa [Assignment.size, hs] using h) (turn X c.var c.previous)
    simp only [mirror, undo?, List.map_cons, Option.map_some, Change.mirror] at hw' ⊢
    rw [hw, hw', mirrorValues_set vs h0]

theorem Whole.undo? (ha : a.Whole n) (hb : a.undo? = some b) : b.Whole n := by
  obtain ⟨vs, history⟩ := a
  cases history with
  | nil => cases hb
  | cons c rest =>
    obtain ⟨h0, h, hc⟩ := ha.history c List.mem_cons_self
    have hs : vs.size = n := ha.size
    have hw := write_eq (a := ⟨vs, c :: rest⟩) h0 (by simpa [Assignment.size, hs] using h) c.previous
    simp only [Assignment.undo?, Option.some.injEq, hw] at hb
    subst hb
    exact ha.set h0 h hc fun d hd => ha.history d (List.mem_cons_of_mem c hd)

/-- The one flip of a variable that has a truth value. -/
theorem flips_of_some {x : Bool} (h0 : 0 ≤ i) (h : i < a.size) (hx : valuation a.values i = some x) :
    a.flips i = .ok [assigning i (!x)] := by
  rw [flips, look_eq h0 h, hx]
  cases x <;> rfl

theorem flips_mirror (ha : a.Whole n) (h0 : 0 ≤ i) (h : i < n) :
    (a.mirror X).flips i = (a.flips i).map (List.map (Move.mirror X)) := by
  obtain ⟨x, hx⟩ := Option.isSome_iff_exists.1 (ha.total i h0 h)
  have hs := ha.lt_size h
  have hs' : i < (a.mirror X).size := by simpa [mirror, Assignment.size] using hs
  have hx' : valuation (a.mirror X).values i = some (x ^^ decide (i ∈ X)) := by
    rw [show (a.mirror X).values = mirrorValues X a.values from rfl, valuation_mirrorValues _ h0, hx]
    rfl
  rw [flips_of_some h0 hs hx, flips_of_some h0 hs' hx']
  simp [Except.map, Move.mirror_assigning]

end

end Assignment

namespace Search

namespace Greedy

open Assignment

/-! ## The choice of a move -/

section
variable {f : Formula} {a : Assignment}

theorem flipsOf_mirror (ha : a.Whole f.numVariables) : ∀ {is : List Int},
    (∀ i ∈ is, 0 ≤ i ∧ i < f.numVariables) →
    flipsOf (a.mirror X) is = (flipsOf a is).map (List.map (Move.mirror X))
  | [], _ => rfl
  | i :: is, h => by
    obtain ⟨h0, hlt⟩ := h i List.mem_cons_self
    have ih := flipsOf_mirror ha fun j hj => h j (List.mem_cons_of_mem i hj)
    simp only [flipsOf, flips_mirror ha h0 hlt, ih]
    cases a.flips i with
    | error e => rfl
    | ok ms => cases flipsOf a is <;> simp [Except.map]

/-- **The candidate moves** of the mirrored values are the mirrored candidate moves. -/
theorem candidateMoves_mirror (ha : a.Whole f.numVariables) :
    candidateMoves (f.mirror X) (a.mirror X) =
      (candidateMoves f a).map (List.map (Move.mirror X)) := by
  unfold candidateMoves
  rw [Formula.candidates_mirror ha.size, Formula.candidates_falsified ha.size]
  refine flipsOf_mirror ha fun i hi => ?_
  obtain ⟨hi, -⟩ := mem_firstOccurrences.1 hi
  obtain ⟨c, hc, hic⟩ := List.mem_flatMap.1 hi
  obtain ⟨l, hl, rfl⟩ := List.mem_map.1 hic
  exact f.inRange c (mem_falsified.1 hc).1 l hl

theorem score_mirror {m : Move} (ha : a.Whole f.numVariables) (h0 : 0 ≤ m.var)
    (h : m.var < f.numVariables) : score (f.mirror X) (a.mirror X) (m.mirror X) = score f a m := by
  have hs : (a.mirror X).size = (f.mirror X).numVariables :=
    (size_mirrorValues a.values).trans ha.size
  obtain ⟨b, hb, hb'⟩ := exists_apply_mirror (X := X) ha h0 h
  rw [score_eq ha.size hb, score_eq hs hb']
  simp only [mirror, Formula.falsified_mirror, List.length_map]

theorem better_mirror (best : Option (Move × Nat)) (m : Move) (n : Nat) :
    better (best.map (Prod.map (Move.mirror X) id)) (m.mirror X) n =
      (better best m n).map (Prod.map (Move.mirror X) id) := by
  cases best with
  | none => rfl
  | some y =>
    obtain ⟨m', n'⟩ := y
    by_cases h : n < n'
    · simp [better, h]
    · simp [better, h]

variable {closed closed' : Std.HashSet Fingerprint}

theorem fingerprintAfter_mirror {m : Move} (ha : a.Whole f.numVariables) (h0 : 0 ≤ m.var)
    (h : m.var < f.numVariables) : ∃ b, a.apply m = .ok b ∧
      a.fingerprintAfter m = .ok (key b.values) ∧
      (a.mirror X).fingerprintAfter (m.mirror X) = .ok (mirrorKey X (key b.values)) := by
  obtain ⟨b, hb, hb'⟩ := exists_apply_mirror (X := X) ha h0 h
  refine ⟨b, hb, fingerprintAfter_of_apply hb, ?_⟩
  rw [fingerprintAfter_of_apply hb', mirrorKey_key]
  rfl

/-- From mirrored moves the selection goes through mirrored finds: it shuts out the same moves, because
the closed fingerprints are mirrored, and scores the others alike. -/
theorem selectFrom_mirror (ha : a.Whole f.numVariables)
    (hclosed : ∀ k, k ∈ closed' ↔ mirrorKey X k ∈ closed) {ms : List Move}
    (hms : ∀ m ∈ ms, 0 ≤ m.var ∧ m.var < f.numVariables) (best : Option (Move × Nat)) :
    selectFrom (f.mirror X) closed' (a.mirror X) (best.map (Prod.map (Move.mirror X) id))
        (ms.map (Move.mirror X)) =
      (selectFrom f closed a best ms).map (Option.map (Prod.map (Move.mirror X) id)) := by
  induction ms generalizing best with
  | nil => rfl
  | cons m ms ih =>
    obtain ⟨h0, hlt⟩ := hms m List.mem_cons_self
    have hrest := fun m' hm' => hms m' (List.mem_cons_of_mem m hm')
    obtain ⟨b, hb, hkey, hkey'⟩ := fingerprintAfter_mirror (X := X) ha h0 hlt
    -- what is closed of the one search is closed of the other, as mirroring twice does nothing
    have hmem : mirrorKey X (key b.values) ∈ closed' ↔ key b.values ∈ closed := by
      rw [hclosed, mirrorKey_mirrorKey]
    rw [List.map_cons, selectFrom, selectFrom, hkey, hkey']
    by_cases hc : key b.values ∈ closed
    · simp only [Std.HashSet.contains_iff_mem.2 hc, Std.HashSet.contains_iff_mem.2 (hmem.2 hc), if_true]
      exact ih hrest best
    · simp only [mt Std.HashSet.contains_iff_mem.1 hc,
        mt Std.HashSet.contains_iff_mem.1 (mt hmem.1 hc), score_mirror ha h0 hlt, score_eq ha.size hb,
        better_mirror]
      exact ih hrest _

theorem selectMove_mirror (ha : a.Whole f.numVariables)
    (hclosed : ∀ k, k ∈ closed' ↔ mirrorKey X k ∈ closed) {ms : List Move}
    (hms : ∀ m ∈ ms, 0 ≤ m.var ∧ m.var < f.numVariables) :
    selectMove (f.mirror X) closed' (a.mirror X) (ms.map (Move.mirror X)) =
      (selectMove f closed a ms).map (Option.map (Move.mirror X)) := by
  have hfrom := selectFrom_mirror ha hclosed hms none
  rw [Option.map_none] at hfrom
  rw [selectMove, selectMove, hfrom]
  rcases selectFrom f closed a none ms with e | _ | ⟨m, n⟩ <;> rfl

end

/-! ## Steps -/

/-- The states are mirrored: they have made the same way through mirrored values. -/
structure Mirrored (X : Finset Int) (s s' : State) : Prop where
  assignment : s'.assignment = s.assignment.mirror X
  closed : ∀ k, k ∈ s'.closed ↔ mirrorKey X k ∈ s.closed
  phase : s'.phase = s.phase
  iterations : s'.iterations = s.iterations
  moves : s'.moves = s.moves
  backtracks : s'.backtracks = s.backtracks
  best : s'.best = s.best

section
variable {f : Formula} {s s' : State}

theorem close_mirror (h : Mirrored X s s') : Mirrored X (close s) (close s') := by
  have hkey : key s'.assignment.values = mirrorKey X (key s.assignment.values) := by
    rw [h.assignment, mirrorKey_key]
    rfl
  refine { h with closed := fun k => ?_ }
  rw [mem_close, mem_close, h.closed, hkey]
  refine or_congr_left ⟨?_, ?_⟩
  · rintro rfl
    rw [mirrorKey_mirrorKey]
  · intro hk
    rw [← hk, mirrorKey_mirrorKey]

theorem backtrack_mirror (hs : s.assignment.Whole f.numVariables) (h : Mirrored X s s') :
    ∃ u u', backtrack s = (u, .ok ()) ∧ backtrack s' = (u', .ok ()) ∧
      u.assignment.Whole f.numVariables ∧ Mirrored X u u' := by
  have hundo := undo?_mirror (X := X) hs
  rw [← h.assignment] at hundo
  have hempty : s'.assignment.history.isEmpty = s.assignment.history.isEmpty := by
    rw [h.assignment]
    exact List.isEmpty_map
  unfold backtrack
  rw [hempty, hundo]
  by_cases hh : s.assignment.history.isEmpty
  · simp only [hh, if_true]
    exact ⟨_, _, rfl, rfl, hs, { h with phase := rfl }⟩
  · simp only [hh]
    cases hu : s.assignment.undo? with
    | none =>
      have hnil := history_eq_nil_iff_undo?.2 hu
      simp [hnil] at hh
    | some b =>
      refine ⟨_, _, rfl, rfl, hs.undo? hu, ?_⟩
      exact
      { h with
        assignment := rfl
        iterations := by simp only [h.iterations]
        backtracks := by simp only [h.backtracks] }

theorem advance_mirror {m : Move} (hs : s.assignment.Whole f.numVariables) (h : Mirrored X s s')
    (h0 : 0 ≤ m.var) (hlt : m.var < f.numVariables) (hm : m.value.truth.isSome) :
    ∃ u u', advance s m = (u, .ok ()) ∧ advance s' (m.mirror X) = (u', .ok ()) ∧
      u.assignment.Whole f.numVariables ∧ Mirrored X u u' := by
  obtain ⟨b, hb, hb'⟩ := exists_apply_mirror (X := X) hs h0 hlt
  rw [← h.assignment] at hb'
  unfold advance
  rw [hb, hb']
  refine ⟨_, _, rfl, rfl, hs.apply h0 hlt hm hb, ?_⟩
  exact
  { h with
    assignment := rfl
    iterations := by simp only [h.iterations]
    moves := by simp only [h.moves] }

/-- **A greedy step commutes with the mirror.** -/
theorem step_mirror (hs : s.assignment.Whole f.numVariables) (h : Mirrored X s s') :
    ∃ u u', step f s = (u, .ok ()) ∧ step (f.mirror X) s' = (u', .ok ()) ∧
      u.assignment.Whole f.numVariables ∧ Mirrored X u u' := by
  obtain ⟨ms, hms, hmem⟩ := candidateMoves_eq hs.size
  have hms' := candidateMoves_mirror (X := X) hs
  rw [hms, ← h.assignment] at hms'
  have hrange : ∀ m ∈ ms, 0 ≤ m.var ∧ m.var < f.numVariables := fun m hm =>
    Formula.vars_inRange ((hmem m).1 hm).var_mem
  have happly : ∀ m ∈ ms, ∃ b, s.assignment.apply m = .ok b := by
    intro m hm
    obtain ⟨h0, hlt⟩ := hrange m hm
    exact ⟨_, apply_eq h0 (hs.lt_size hlt)⟩
  obtain ⟨choice, hsel, -, hsome⟩ := selectMove_eq (close s).closed hs.size happly
  have hclose := close_mirror h
  have hsel' := selectMove_mirror hs hclose.closed hrange
  rw [hsel, ← h.assignment] at hsel'
  unfold step
  rw [hms, hms']
  simp only [Except.map]
  rw [show (close s).assignment = s.assignment from rfl,
    show (close s').assignment = s'.assignment from rfl, hsel, hsel']
  cases choice with
  | none => exact backtrack_mirror hs hclose
  | some m =>
    obtain ⟨hm, -⟩ := hsome m rfl
    obtain ⟨h0, hlt⟩ := hrange m hm
    obtain ⟨b, hb, -⟩ := ((hmem m).1 hm).truth
    exact advance_mirror hs hclose h0 hlt (by rw [hb]; rfl)

end

end Greedy

/-! ## Rounds -/

/-- Makes the given number of rounds, or as many as succeed. -/
def Task.play (t : Task) : Nat → Run → Run × Except Fault Unit
  | 0, r => (r, .ok ())
  | k + 1, r =>
    match t.round r with
    | (r, .error e) => (r, .error e)
    | (r, .ok ()) => t.play k r

namespace Greedy

open Assignment

section
variable {t t' : Task} {p p' : Run}

theorem cost_mirror {f : Formula} {s s' : State} (ha : s'.assignment = s.assignment.mirror X) :
    s'.cost (f.mirror X) = s.cost f := by
  rw [State.cost, State.cost, ha]
  simp only [mirror, Formula.falsified_mirror, List.length_map]

theorem update_mirror (hf : t'.formula = t.formula.mirror X)
    (hp : p.state.assignment.Whole t.formula.numVariables) (h : Mirrored X p.state p'.state) :
    ∃ q q' n, t.update p = (q, .ok n) ∧ t'.update p' = (q', .ok n) ∧
      q.state.assignment = p.state.assignment ∧ Mirrored X q.state q'.state := by
  have hsize : p'.state.assignment.size = t'.formula.numVariables := by
    rw [h.assignment, hf]
    exact (size_mirrorValues _).trans hp.size
  have hcost : p'.state.cost t'.formula = p.state.cost t.formula := by
    rw [hf]
    exact cost_mirror h.assignment
  refine ⟨_, _, _, Task.update_run hp.size, by rw [Task.update_run hsize, hcost], rfl, ?_⟩
  exact
  { h with
    phase := by simp only [Task.rescoring, State.rescored, hcost, h.phase]
    best := by simp only [Task.rescoring, State.rescored, hcost, h.best] }

theorem round_mirror (hm : t.method = method) (hm' : t'.method = method)
    (hf : t'.formula = t.formula.mirror X) (hp : p.state.assignment.Whole t.formula.numVariables)
    (h : Mirrored X p.state p'.state) :
    ∃ q q', t.round p = (q, .ok ()) ∧ t'.round p' = (q', .ok ()) ∧
      q.state.assignment.Whole t.formula.numVariables ∧ Mirrored X q.state q'.state := by
  obtain ⟨u, u', hu, hu', hw, hmir⟩ := step_mirror hp h
  unfold Task.round
  rw [hm, hm', hf, show method.step = step from rfl, hu, hu']
  simp only [hmir.phase]
  by_cases hs : u.phase = .searching
  · have hrun : Mirrored X ({ p with state := u } : Run).state ({ p' with state := u' } : Run).state :=
      hmir
    obtain ⟨q, q', n, hq, hq', ha, hmir'⟩ := update_mirror hf hw hrun
    simp only [hs, if_true, hq, hq']
    exact ⟨q, q', rfl, rfl, by rw [ha]; exact hw, hmir'⟩
  · simp only [hs, if_false]
    exact ⟨_, _, rfl, rfl, hw, hmir⟩

theorem play_mirror (hm : t.method = method) (hm' : t'.method = method)
    (hf : t'.formula = t.formula.mirror X) (k : Nat)
    (hp : p.state.assignment.Whole t.formula.numVariables) (h : Mirrored X p.state p'.state) :
    ∃ q q', t.play k p = (q, .ok ()) ∧ t'.play k p' = (q', .ok ()) ∧ Mirrored X q.state q'.state := by
  induction k generalizing p p' with
  | zero => exact ⟨p, p', rfl, rfl, h⟩
  | succ k ih =>
    obtain ⟨q, q', hq, hq', hw, hmir⟩ := round_mirror hm hm' hf hp h
    rw [Task.play, Task.play, hq, hq']
    exact ih hw hmir

/-- A search that is about to make its first round from total values. -/
structure Setout (f : Formula) (s : State) : Prop where
  size : s.assignment.size = f.numVariables
  total : s.assignment.isTotal = true
  history : s.assignment.history = []
  closed : s.closed = ∅
  iterations : s.iterations = 0
  moves : s.moves = 0
  backtracks : s.backtracks = 0
  best : s.best = s.cost f

/-- Two searches that start in mirrored values are mirrored at their start. -/
theorem mirrored_of_setout {f f' : Formula} {s s' : State} (hf : f' = f.mirror X) (h : Setout f s)
    (h' : Setout f' s') (hphase : s'.phase = s.phase)
    (hvalues : s'.assignment.values = mirrorValues X s.assignment.values) : Mirrored X s s' := by
  have ha : s'.assignment = s.assignment.mirror X := by
    rw [Assignment.mirror, h.history, ← hvalues]
    exact congrArg (Assignment.mk s'.assignment.values) h'.history
  have hcost : s'.cost f' = s.cost f := by
    rw [hf]
    exact cost_mirror ha
  exact
  { assignment := ha
    closed := fun k => by simp [h.closed, h'.closed]
    phase := hphase
    iterations := by rw [h.iterations, h'.iterations]
    moves := by rw [h.moves, h'.moves]
    backtracks := by rw [h.backtracks, h'.backtracks]
    best := by rw [h.best, h'.best, hcost] }

/-- **Polarity symmetry.** Let one greedy search start in total values, and another, of the mirrored
formula, in the mirrored values. After any number of rounds the two have the same phase, counts, least
score and variables in their histories, and the values, recorded previous values and closed fingerprints
of the second are those of the first, mirrored. -/
theorem polarity_symmetric (hm : t.method = method) (hm' : t'.method = method)
    (hf : t'.formula = t.formula.mirror X) (hp : Setout t.formula p.state)
    (hp' : Setout t'.formula p'.state) (hphase : p'.state.phase = p.state.phase)
    (hvalues : p'.state.assignment.values = mirrorValues X p.state.assignment.values) (k : Nat) :
    ∃ q q', t.play k p = (q, .ok ()) ∧ t'.play k p' = (q', .ok ()) ∧ Mirrored X q.state q'.state :=
  play_mirror hm hm' hf k (whole_of_isTotal hp.size hp.total hp.history)
    (mirrored_of_setout hf hp hp' hphase hvalues)

/-- A greedy search of the formula from the values, which leave the given number of clauses untrue. -/
def outset (f : Formula) (bs : List Bool) (best : Nat) : Task × Run :=
  (⟨f, method, .random, .ok ⟨0, 1, none⟩, .never, .never, fun _ => 0, false⟩,
    ⟨⟨⟨0, 1, none⟩, .ofBools bs, .searching, 0, 1, best, ∅, 0, 0⟩, 0, []⟩)

theorem polarity_symmetric_chain :
    let f : Formula :=
      ⟨2, [⟨[⟨0, false⟩], by decide⟩, ⟨[⟨0, true⟩, ⟨1, false⟩], by decide⟩], [], by decide⟩
    let p := outset f [false, false] 1
    let p' := outset (f.mirror {1}) [false, true] 1
    ∃ q q', p.1.play 2 p.2 = (q, .ok ()) ∧ p'.1.play 2 p'.2 = (q', .ok ()) ∧
      Mirrored {1} q.state q'.state := by
  intro f p p'
  have hp : Setout p.1.formula p.2.state :=
    ⟨rfl, isTotal_ofBools _, rfl, rfl, rfl, rfl, rfl, by decide⟩
  have hp' : Setout p'.1.formula p'.2.state :=
    ⟨rfl, isTotal_ofBools _, rfl, rfl, rfl, rfl, rfl, by decide⟩
  have hvalues : p'.2.state.assignment.values = mirrorValues {1} p.2.state.assignment.values := by
    decide
  exact polarity_symmetric rfl rfl rfl hp hp' rfl hvalues 2

end

end Greedy

end Search

end

end LocalSat
