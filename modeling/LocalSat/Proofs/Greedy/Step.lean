import LocalSat.Proofs.Greedy.Neighbour
import LocalSat.Proofs.Trajectory

/-!
# What a greedy step does

On a state of the formula's length a greedy step always succeeds, and `Step` lists all that it may do
(`step_eq`): close the present values and then move forward to a neighbour that is not closed, or, every
neighbour being closed, take the latest move back, or give up when there is none. So the greedy method is
regular (`regular`).
-/

namespace LocalSat.Search.Greedy

open Assignment

/-! ## Choosing a move -/

theorem better_eq (best : Option (Move × Nat)) (m : Move) (n : Nat) :
    ∃ x, better best m n = some x ∧ (x = (m, n) ∨ best = some x) := by
  unfold better
  cases best with
  | none => exact ⟨_, rfl, Or.inl rfl⟩
  | some y =>
    obtain ⟨m', n'⟩ := y
    by_cases h : n < n'
    · exact ⟨(m, n), if_pos h, Or.inl rfl⟩
    · exact ⟨(m', n'), if_neg h, Or.inr rfl⟩

section
variable {f : Formula} {closed : Std.HashSet Fingerprint} {a : Assignment}

theorem score_eq {m : Move} {b : Assignment} (ha : a.size = f.numVariables) (h : a.apply m = .ok b) :
    score f a m = .ok (f.falsified (valuation b.values)).length := by
  unfold score
  rw [h]
  exact unsatisfiedCount_eq (reads_look ((size_apply h).trans ha))

/-- The selection finds nothing exactly when it has nothing yet and every move leads into closed values;
what it finds it had already, or it is a listed move that leads to open values. -/
theorem selectFrom_eq (ha : a.size = f.numVariables) : ∀ (best : Option (Move × Nat)) {ms : List Move},
    (∀ m ∈ ms, ∃ b, a.apply m = .ok b) → ∃ found, selectFrom f closed a best ms = .ok found ∧
      (found = none ↔ best = none ∧ ∀ m ∈ ms, ∀ b, a.apply m = .ok b → b.fingerprint ∈ closed) ∧
      ∀ x, found = some x → best = some x ∨
        (x.1 ∈ ms ∧ ∀ b, a.apply x.1 = .ok b → b.fingerprint ∉ closed)
  | best, [], _ => ⟨best, rfl, by simp, fun x hx => Or.inl hx⟩
  | best, m :: ms, h => by
    obtain ⟨b, hb⟩ := h m List.mem_cons_self
    have hrest : ∀ m' ∈ ms, ∃ b, a.apply m' = .ok b := fun m' hm' => h m' (List.mem_cons_of_mem m hm')
    unfold selectFrom
    rw [fingerprintAfter_of_apply hb]
    -- a closed move is passed over; an open one makes the best so far, old or new, a find
    by_cases hc : b.fingerprint ∈ closed
    · obtain ⟨found, hf, hnone, hsome⟩ := selectFrom_eq ha best hrest
      simp only [Std.HashSet.contains_iff_mem.2 hc, if_true]
      refine ⟨found, hf, ?_, fun x hx => ?_⟩
      · rw [hnone]
        simp only [List.mem_cons, forall_eq_or_imp, hb, Except.ok.injEq, forall_eq', hc, true_and]
      · rcases hsome x hx with h' | ⟨hm, ho⟩
        · exact Or.inl h'
        · exact Or.inr ⟨List.mem_cons_of_mem m hm, ho⟩
    · obtain ⟨y, hy, hy'⟩ := better_eq best m (f.falsified (valuation b.values)).length
      obtain ⟨found, hf, hnone, hsome⟩ := selectFrom_eq ha (some y) hrest
      simp only [mt Std.HashSet.contains_iff_mem.1 hc, score_eq ha hb, hy]
      refine ⟨found, hf, ?_, fun x hx => ?_⟩
      · rw [hnone]
        constructor
        · rintro ⟨h', -⟩; cases h'
        · rintro ⟨-, h'⟩; exact absurd (h' m List.mem_cons_self b hb) hc
      · rcases hsome x hx with h' | ⟨hm, ho⟩
        · cases h'
          rcases hy' with rfl | h'
          · refine Or.inr ⟨List.mem_cons_self, fun b' hb' => ?_⟩
            rw [hb] at hb'
            cases hb'
            exact hc
          · exact Or.inl h'
        · exact Or.inr ⟨List.mem_cons_of_mem m hm, ho⟩

theorem selectMove_eq (closed : Std.HashSet Fingerprint) (ha : a.size = f.numVariables) {ms : List Move}
    (h : ∀ m ∈ ms, ∃ b, a.apply m = .ok b) : ∃ choice, selectMove f closed a ms = .ok choice ∧
      (choice = none ↔ ∀ m ∈ ms, ∀ b, a.apply m = .ok b → b.fingerprint ∈ closed) ∧
      ∀ m, choice = some m → m ∈ ms ∧ ∀ b, a.apply m = .ok b → b.fingerprint ∉ closed := by
  obtain ⟨found, hf, hnone, hsome⟩ := selectFrom_eq ha none h
  refine ⟨found.map Prod.fst, by rw [selectMove, hf]; rfl, ?_, fun m hm => ?_⟩
  · rw [Option.map_eq_none_iff, hnone]
    simp
  · obtain ⟨x, hx, rfl⟩ := Option.map_eq_some_iff.1 hm
    rcases hsome x hx with h' | h'
    · cases h'
    · exact h'

end

/-! ## Steps -/

/-- Every neighbour of the present values is closed, these values included. -/
def Stuck (f : Formula) (s : State) : Prop :=
  ∀ v, Neighbour f s.assignment.values v → key v ∈ (close s).closed

/-- All that a greedy step may do. -/
inductive Step (f : Formula) (s : State) : State → Prop
  | forward {m : Move} {b : Assignment} (applied : s.assignment.apply m = .ok b)
      (near : Neighbour f s.assignment.values b.values) (isOpen : key b.values ∉ (close s).closed) :
      Step f s
        { close s with assignment := b, moves := s.moves + 1, iterations := s.iterations + 1 }
  | back {b : Assignment} (stuck : Stuck f s) (undone : s.assignment.undo? = some b) :
      Step f s
        { close s with
          assignment := b, backtracks := s.backtracks + 1, iterations := s.iterations + 1 }
  | exhaust (stuck : Stuck f s) (atStart : s.assignment.history = []) :
      Step f s { close s with phase := .exhausted }

theorem mem_close {s : State} {k : Fingerprint} :
    k ∈ (close s).closed ↔ k = key s.assignment.values ∨ k ∈ s.closed := by
  rw [close, Std.HashSet.mem_insert, fingerprint_eq_key, beq_iff_eq]
  exact or_congr_left eq_comm

/-- A stuck search goes back if it can, and else gives up. -/
theorem backtrack_eq {f : Formula} {s : State} (hstuck : Stuck f s) :
    ∃ s', backtrack (close s) = (s', .ok ()) ∧ Step f s s' := by
  unfold backtrack
  rw [show (close s).assignment = s.assignment from rfl]
  cases hu : s.assignment.undo? with
  | none =>
    have hh := history_eq_nil_iff_undo?.2 hu
    rw [if_pos (by rw [hh]; rfl)]
    exact ⟨_, rfl, .exhaust hstuck hh⟩
  | some b =>
    have hh : ¬ s.assignment.history.isEmpty := by
      intro he
      have hn := history_eq_nil_iff_undo?.1 (List.isEmpty_iff.1 he)
      rw [hu] at hn
      cases hn
    rw [if_neg hh]
    exact ⟨_, rfl, .back hstuck hu⟩

/-- **A greedy step succeeds**, and does one of the three things. -/
theorem step_eq {f : Formula} {s : State} (h : s.assignment.size = f.numVariables) :
    ∃ s', step f s = (s', .ok ()) ∧ Step f s s' := by
  obtain ⟨ms, hms, hmem⟩ := candidateMoves_eq h
  have hsize : s.assignment.values.size = f.numVariables := h
  have happly : ∀ m, Repairs f s.assignment.values m → ∃ b, s.assignment.apply m = .ok b ∧
      b.values = s.assignment.values.setIfInBounds m.var.toNat m.value.truth := by
    intro m hm
    obtain ⟨h0, hlt⟩ := Formula.vars_inRange hm.var_mem
    exact ⟨_, apply_eq h0 (by rw [h]; exact hlt), rfl⟩
  have hall : ∀ m ∈ ms, ∃ b, s.assignment.apply m = .ok b := by
    intro m hm
    obtain ⟨b, hb, -⟩ := happly m ((hmem m).1 hm)
    exact ⟨b, hb⟩
  obtain ⟨choice, hsel, hnone, hsome⟩ := selectMove_eq (close s).closed h hall
  unfold step
  rw [hms]
  simp only
  rw [show (close s).assignment = s.assignment from rfl, hsel]
  cases choice with
  | none =>
    have hstuck : Stuck f s := by
      intro v hv
      obtain ⟨m, hm, rfl⟩ := (neighbour_iff hsize).1 hv
      obtain ⟨b, hb, hbv⟩ := happly m hm
      rw [← hbv]
      exact hnone.1 rfl m ((hmem m).2 hm) b hb
    exact backtrack_eq hstuck
  | some m =>
    obtain ⟨hm, hopen⟩ := hsome m rfl
    have hr := (hmem m).1 hm
    obtain ⟨b, hb, hbv⟩ := happly m hr
    simp only [advance]
    rw [show (close s).assignment = s.assignment from rfl, hb]
    exact ⟨_, rfl, .forward hb ((neighbour_iff hsize).2 ⟨m, hr, hbv⟩) (hopen b hb)⟩

theorem Step.kept {f : Formula} {s s' : State} (h : Step f s s') (hs : s.phase = .searching) :
    Kept s s' := by
  cases h with
  | forward happ hnear hopen => exact ⟨size_apply happ, rfl, Or.inl ⟨hs, rfl⟩⟩
  | back hstuck hundo => exact ⟨size_undo? hundo, rfl, Or.inl ⟨hs, rfl⟩⟩
  | exhaust hstuck hstart => exact ⟨rfl, rfl, Or.inr ⟨rfl, rfl, rfl⟩⟩

/-- **The greedy method is regular.** -/
theorem regular {m : Method} (hm : m = method) : m.Regular := by
  subst hm
  intro f s h hs _
  obtain ⟨s', hstep, hS⟩ := step_eq h
  exact ⟨s', hstep, hS.kept hs⟩

end LocalSat.Search.Greedy
