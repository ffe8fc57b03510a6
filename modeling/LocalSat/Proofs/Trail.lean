import LocalSat.Proofs.Satisfaction

/-!
# Moves in range, fingerprints, and the trail of an assignment

A move can be made exactly if its variable is in range, counted from either end (`exists_apply_iff`). It
writes one entry and records what it replaced (`apply_eq`), changes what its variable is looked up as and
nothing else (`look_apply`), and its fingerprint is known beforehand (`fingerprintAfter_of_apply`).
Fingerprints tell values apart (`key_injective`). The `trail` of an assignment holds its values and those
that taking back its moves, the latest first, would bring up again; a move puts its values in front of it
(`trail_apply`) and an undo drops them (`trail_undo?`).
-/

namespace LocalSat

/-- The variable that a move names is one of `n`, counted from the start or from the end. -/
def Move.InRange (n : Nat) (m : Move) : Prop := -(n : Int) ≤ m.var ∧ m.var < n

instance (n : Nat) (m : Move) : Decidable (m.InRange n) :=
  inferInstanceAs (Decidable (_ ∧ _))

namespace Assignment

/-! ## Fingerprints -/

/-- The fingerprint of values. -/
def key (vs : Values) : Fingerprint := vs.toList.map octet

theorem fingerprint_eq_key (a : Assignment) : a.fingerprint = key a.values := rfl

theorem octet_injective : Function.Injective octet := by
  intro x y h
  cases x with
  | none =>
    cases y with
    | none => rfl
    | some y => cases y <;> simp [octet] at h
  | some x =>
    cases y with
    | none => cases x <;> simp [octet] at h
    | some y => cases x <;> cases y <;> simp [octet] at h ⊢

/-- **Fingerprints tell values apart.** -/
theorem key_injective : Function.Injective key := by
  intro u v h
  exact Array.toList_inj.1 (List.map_injective_iff.2 octet_injective h)

/-! ## Moves in range -/

/-- The move that gives a variable a truth value. -/
def assigning (i : Int) (b : Bool) : Move := ⟨i, .int (if b then 1 else 0)⟩

theorem truth_assigning (i : Int) (b : Bool) : (assigning i b).value.truth = some b := by
  cases b <;> rfl

section
variable {a b : Assignment} {i : Int}

theorem write_eq (h0 : 0 ≤ i) (h : i < a.size) (x : Option Bool) :
    a.write i x = a.values.setIfInBounds i.toNat x := by
  rw [write, position?_toNat h0 h]

theorem apply_eq {m : Move} (h0 : 0 ≤ m.var) (h : m.var < a.size) :
    a.apply m = .ok ⟨a.values.setIfInBounds m.var.toNat m.value.truth,
      ⟨m.var, valuation a.values m.var⟩ :: a.history⟩ := by
  rw [apply, look_eq h0 h, write_eq h0 h]

theorem apply_eq_ok_iff {m : Move} : a.apply m = .ok b ↔
    ∃ old, a.look m.var = .ok old ∧ b = ⟨a.write m.var m.value.truth, ⟨m.var, old⟩ :: a.history⟩ := by
  unfold apply
  cases a.look m.var with
  | error e => simp
  | ok old => simp [eq_comm]

/-- The variables that an assignment has, counted from its start or from its end. -/
theorem exists_look_iff : (∃ x, a.look i = .ok x) ↔ -(a.size : Int) ≤ i ∧ i < a.size := by
  rw [← position?_isSome, Option.isSome_iff_exists]
  constructor
  · rintro ⟨x, hx⟩
    obtain ⟨p, hp, -⟩ := look_eq_ok_iff.1 hx
    exact ⟨p, hp⟩
  · rintro ⟨p, hp⟩
    have hlt : p < a.values.size := position?_lt hp
    exact ⟨_, look_eq_ok_iff.2 ⟨p, hp, Array.getElem?_eq_getElem hlt⟩⟩

theorem look_of_outOfRange (h : ¬ (-(a.size : Int) ≤ i ∧ i < a.size)) :
    a.look i = .error (.assignment i a.size) := by
  rw [← position?_isSome, Option.not_isSome_iff_eq_none] at h
  simp [look, h]

theorem exists_apply_iff {m : Move} : (∃ b, a.apply m = .ok b) ↔ m.InRange a.size := by
  rw [Move.InRange, ← exists_look_iff]
  constructor
  · rintro ⟨b, hb⟩
    obtain ⟨old, hold, -⟩ := apply_eq_ok_iff.1 hb
    exact ⟨old, hold⟩
  · rintro ⟨old, hold⟩
    exact ⟨_, apply_eq_ok_iff.2 ⟨old, hold, rfl⟩⟩

/-- What a variable is looked up as after a move: its new value if the move names it, from either end, and
else what it was. -/
theorem look_apply {m : Move} (h : a.apply m = .ok b) (j : Int) :
    b.look j = if position? a.size j = position? a.size m.var then .ok m.value.truth else a.look j := by
  obtain ⟨old, hold, hb⟩ := apply_eq_ok_iff.1 h
  obtain ⟨p, hp, -⟩ := look_eq_ok_iff.1 hold
  have hlt : p < a.values.size := position?_lt hp
  have hvalues : b.values = a.values.setIfInBounds p m.value.truth := by
    rw [hb]
    simp only [write, hp]
  unfold look
  rw [size_apply h, hvalues, hp]
  cases hj : position? a.size j with
  | none => simp
  | some q =>
    by_cases hqp : q = p
    · subst hqp
      simp [hlt]
    · simp [hqp, Array.getElem?_setIfInBounds_ne (Ne.symm hqp)]

/-- A block that only looks at the assignment leaves no trace of the move that it is run with. -/
theorem tentatively_of_apply {ε α : Type} {m : Move} (h : a.apply m = .ok b)
    (view : Assignment → Except ε α) :
    a.tentatively m (fun c => (c, view c)) = (a, (view b).mapError .inside) := by
  unfold tentatively
  rw [h]
  simp only [undo?_apply h]

theorem apply_of_outOfRange {m : Move} (h : ¬ m.InRange a.size) :
    a.apply m = .error (.assignment m.var a.size) := by
  rw [apply, look_of_outOfRange h]

/-- A block whose move cannot be made is not entered. -/
theorem tentatively_of_outOfRange {ε α : Type} {m : Move} (h : ¬ m.InRange a.size)
    (block : Assignment → Assignment × Except ε α) :
    a.tentatively m block = (a, .error (.entering (.assignment m.var a.size))) := by
  rw [tentatively, apply_of_outOfRange h]

theorem fingerprintAfter_of_apply {m : Move} (h : a.apply m = .ok b) :
    a.fingerprintAfter m = .ok b.fingerprint := by
  unfold apply at h
  unfold fingerprintAfter
  split at h
  · cases h
  · cases h
    rfl

theorem size_undo? (h : a.undo? = some b) : b.size = a.size := by
  unfold undo? at h
  split at h
  · cases h
  · cases h
    exact size_write a _ _

/-- What a variable holds after one entry has been written. -/
theorem valuation_set {vs : Values} {x : Option Bool} {j : Int} (h0 : 0 ≤ i) (h : i < vs.size)
    (hj : 0 ≤ j) : valuation (vs.setIfInBounds i.toNat x) j = if j = i then x else valuation vs j := by
  have hi : i.toNat < vs.size := by omega
  by_cases hji : j = i
  · subst hji
    simp [valuation, hi]
  · have hne : i.toNat ≠ j.toNat := by omega
    simp [valuation, hji, Array.getElem?_setIfInBounds_ne hne, Array.getD_eq_getD_getElem?]

/-- The moves that change a variable in range give it each truth value that it does not hold. -/
theorem flips_eq (h0 : 0 ≤ i) (h : i < a.size) :
    ∃ ms, a.flips i = .ok ms ∧
      ∀ m, m ∈ ms ↔ ∃ b, valuation a.values i ≠ some b ∧ m = assigning i b := by
  unfold flips
  rw [look_eq h0 h]
  cases hv : valuation a.values i with
  | none =>
    refine ⟨_, rfl, fun m => ?_⟩
    constructor
    · intro hm
      simp only [List.mem_cons, List.not_mem_nil, or_false] at hm
      rcases hm with rfl | rfl
      · exact ⟨true, by simp, rfl⟩
      · exact ⟨false, by simp, rfl⟩
    · rintro ⟨b, -, rfl⟩
      cases b <;> simp [assigning]
  | some c =>
    refine ⟨_, rfl, fun m => ?_⟩
    constructor
    · intro hm
      rw [List.mem_singleton] at hm
      subst hm
      exact ⟨!c, by cases c <;> simp, by cases c <;> rfl⟩
    · rintro ⟨b, hb, rfl⟩
      cases b <;> cases c <;> simp [assigning] at hb ⊢

end

/-! ## The trail -/

/-- The values, and those that taking back the given changes in order brings up again. -/
def trailFrom (vs : Values) : List Change → List Values
  | [] => [vs]
  | c :: rest => vs :: trailFrom ((⟨vs, []⟩ : Assignment).write c.var c.previous) rest

/-- The values of an assignment, and those that taking back its moves, the latest first, brings up
again; the last are those that its history began with. -/
def trail (a : Assignment) : List Values := trailFrom a.values a.history

section
variable {a b : Assignment}

theorem trail_undo? (h : a.undo? = some b) : a.trail = a.values :: b.trail := by
  obtain ⟨vs, history⟩ := a
  cases history with
  | nil => cases h
  | cons c rest =>
    cases h
    rfl

theorem trail_apply {m : Move} (h : a.apply m = .ok b) : b.trail = b.values :: a.trail :=
  trail_undo? (undo?_apply h)

theorem trail_of_history_nil (h : a.history = []) : a.trail = [a.values] := by
  rw [trail, h, trailFrom]

theorem trail_eq_cons (a : Assignment) : ∃ rest, a.trail = a.values :: rest := by
  cases h : a.history with
  | nil => exact ⟨[], trail_of_history_nil h⟩
  | cons c rest => exact ⟨_, by rw [trail, h, trailFrom]⟩

theorem values_mem_trail (a : Assignment) : a.values ∈ a.trail := by
  obtain ⟨rest, h⟩ := trail_eq_cons a
  rw [h]
  exact List.mem_cons_self

theorem length_history_undo? (h : a.undo? = some b) : a.history.length = b.history.length + 1 := by
  obtain ⟨vs, history⟩ := a
  cases history with
  | nil => cases h
  | cons c rest =>
    cases h
    rfl

theorem length_history_apply {m : Move} (h : a.apply m = .ok b) :
    b.history.length = a.history.length + 1 :=
  length_history_undo? (undo?_apply h)

theorem history_eq_nil_iff_undo? : a.history = [] ↔ a.undo? = none := by
  obtain ⟨vs, history⟩ := a
  cases history <;> simp [undo?]

end

end Assignment

end LocalSat
