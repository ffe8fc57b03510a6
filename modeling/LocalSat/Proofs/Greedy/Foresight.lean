import LocalSat.Failure
import LocalSat.Proofs.Greedy.Path

/-!
# What fingerprints foretell

A fingerprint, like the text of an assignment, has one sign for each variable and a sign of its own for
each thing that a variable can hold, so equal fingerprints mean equal values (`fingerprint_eq_iff`,
`text_eq_iff`). The fingerprint that a move would lead to is the one that the move leads to, made for good
or for a moment, and it fails when the move does (`foretold`).

The greedy search asks no more of a move than whether the fingerprint that it would lead to is closed. The
closed fingerprints are those of the values that the run has left (`closes_of_trajectory`), so that what
it discards are the moves that lead back to such values (`selectMove_discards`). Main statement:
`fingerprints_foretell`.
-/

namespace LocalSat

namespace Assignment

/-! ## Keys of values -/

section
variable {a b : Assignment} {m : Move}

theorem map_values_eq_iff {α : Type} {g : Option Bool → α} (hg : Function.Injective g) :
    a.values.toList.map g = b.values.toList.map g ↔ a.values = b.values := by
  rw [(List.map_injective_iff.2 hg).eq_iff, Array.toList_inj]

theorem fingerprint_eq_iff : a.fingerprint = b.fingerprint ↔ a.values = b.values :=
  map_values_eq_iff octet_injective

theorem letter_injective : Function.Injective letter := by
  intro x y h
  rcases x with _ | _ | _ <;> rcases y with _ | _ | _ <;> simp [letter] at h ⊢

theorem text_eq_iff : a.text = b.text ↔ a.values = b.values := by
  rw [text, text, String.ofList_inj]
  exact map_values_eq_iff letter_injective

/-! ## Looking ahead -/

/-- Takes the fingerprint of the assignment while a move is made for a moment. -/
def peek (a : Assignment) (m : Move) : Assignment × Except (BlockError Empty) Fingerprint :=
  a.tentatively m fun b => (b, .ok b.fingerprint)

theorem fingerprintAfter_eq (a : Assignment) (m : Move) :
    a.fingerprintAfter m = (a.apply m).map fingerprint := by
  unfold fingerprintAfter apply
  cases a.look m.var <;> rfl

/-- What looking ahead to a move tells of the move, and leaves of the assignment. -/
structure Foretold (a : Assignment) (m : Move) : Prop where
  within : m.InRange a.size → ∃ b, a.apply m = .ok b ∧ a.fingerprintAfter m = .ok b.fingerprint ∧
    a.peek m = (a, .ok b.fingerprint)
  beyond : ¬ m.InRange a.size → ∃ e, (Failure.outOfRange e).kind = "IndexError" ∧ a.apply m = .error e ∧
    a.fingerprintAfter m = .error e ∧ a.peek m = (a, .error (.entering e))

theorem foretold (a : Assignment) (m : Move) : Foretold a m where
  within h := by
    obtain ⟨b, hb⟩ := exists_apply_iff.2 h
    exact ⟨b, hb, fingerprintAfter_of_apply hb, tentatively_of_apply hb fun c => .ok c.fingerprint⟩
  beyond h := by
    have happly := apply_of_outOfRange h
    refine ⟨_, rfl, happly, ?_, tentatively_of_outOfRange h _⟩
    rw [fingerprintAfter_eq, happly]
    rfl

end

end Assignment

namespace Search.Greedy

open Assignment

/-! ## The test for closed values -/

/-- The move leads to values that have been left. -/
def leadsBack (left : List Values) (a : Assignment) (m : Move) : Bool :=
  match a.apply m with
  | .ok b => decide (b.values ∈ left)
  | .error _ => false

/-- What is closed are the fingerprints of the values that have been left. -/
def Closes (closed : Std.HashSet Fingerprint) (left : List Values) : Prop :=
  ∀ k, k ∈ closed ↔ k ∈ left.map key

section
variable {f : Formula} {closed : Std.HashSet Fingerprint} {left : List Values} {a b : Assignment}
  {m : Move}

theorem Closes.contains_eq (h : Closes closed left) (hb : a.apply m = .ok b) :
    closed.contains b.fingerprint = leadsBack left a m := by
  have hmem : b.fingerprint ∈ closed ↔ b.values ∈ left := by
    rw [h, fingerprint_eq_key, List.mem_map_of_injective key_injective]
  rw [leadsBack, hb, Bool.eq_iff_iff, ← Std.HashSet.contains_iff_mem.symm, hmem, decide_eq_true_iff]

/-- What is passed over as closed might as well not be among the moves, and then nothing is closed. -/
theorem selectFrom_discards (h : Closes closed left) (best : Option (Move × Nat)) (ms : List Move) :
    selectFrom f closed a best ms =
      selectFrom f ∅ a best (ms.filter fun m => !leadsBack left a m) := by
  induction ms generalizing best with
  | nil => rfl
  | cons m ms ih =>
    cases hm : a.apply m with
    | error e =>
      have hback : leadsBack left a m = false := by rw [leadsBack, hm]
      rw [List.filter_cons_of_pos (by simp [hback]), selectFrom, selectFrom, fingerprintAfter_eq, hm]
      rfl
    | ok b =>
      have hkey := fingerprintAfter_of_apply hm
      have hcontains := h.contains_eq hm
      by_cases hback : leadsBack left a m = true
      · rw [List.filter_cons_of_neg (by simp [hback]), selectFrom, hkey]
        simp only [hcontains, hback, if_true]
        exact ih best
      · rw [List.filter_cons_of_pos (by simp [hback]), selectFrom, selectFrom, hkey]
        simp only [hcontains, hback, Std.HashSet.contains_empty, Bool.false_eq_true, if_false]
        cases score f a m with
        | error e => rfl
        | ok n => exact ih (better best m n)

theorem selectMove_discards (h : Closes closed left) (ms : List Move) :
    selectMove f closed a ms = selectMove f ∅ a (ms.filter fun m => !leadsBack left a m) := by
  rw [selectMove, selectMove, selectFrom_discards h]

end

/-! ## The values that a run has left -/

section
variable {t : Task} {r q : Run}

/-- While a step selects its move, the values that it is about to leave are closed too. -/
theorem Closes.close {s : State} {left : List Values} (h : Closes s.closed left) :
    Closes (close s).closed (s.assignment.values :: left) := by
  intro k
  rw [mem_close, h, List.map_cons, List.mem_cons]

/-- **Between two rounds** of a greedy run the closed values are those that its rounds have left. -/
theorem closes_of_trajectory (hm : t.method = method) : ∀ {earlier : List Run} {q : Run},
    t.Trajectory r (q :: earlier) → Closes q.state.closed (earlier.map Run.values)
  | [], q, h => by
    obtain ⟨r₀, hl⟩ := h.launched
    obtain ⟨g, hg⟩ := Task.generator_of_launch hl
    have hq : q = r₀ := Option.some.inj (h.getLast?_eq hl)
    intro k
    rw [hq, (Task.fresh_of_launch hg hl).closed]
    exact iff_of_false Std.HashSet.not_mem_empty (by simp)
  | p :: rest, q, h => by
    obtain ⟨s', hb, -, -, hS, hq⟩ := latest_step hm h
    have hc : s'.closed = (Greedy.close p.state).closed := by cases hS <;> rfl
    rw [(latest_kept hq).2, hc]
    exact (closes_of_trajectory hm hb).close

end

/-- **Fingerprints identify states and foretell moves.** The fingerprint that a move would lead to is the
one that it leads to, whether it is made for good or for a moment, and looking ahead fails just when the
move does; fingerprints and texts are equal exactly for equal values; and what the greedy search discards
for its fingerprint, in any round, are the moves that lead back to values that the run has left. -/
theorem fingerprints_foretell :
    (∀ a m, Foretold a m) ∧
    (∀ a b : Assignment, (a.fingerprint = b.fingerprint ↔ a.values = b.values) ∧
      (a.text = b.text ↔ a.values = b.values)) ∧
    ∀ (s : Solver) (w : Surroundings) (q : Run) (earlier : List Run), s.method = method →
      (s.task w).Trajectory s.run (q :: earlier) → ∀ ms,
      selectMove s.formula (close q.state).closed q.state.assignment ms =
        selectMove s.formula ∅ q.state.assignment
          (ms.filter fun m => !leadsBack ((q :: earlier).map Run.values) q.state.assignment m) := by
  refine ⟨foretold, fun a b => ⟨fingerprint_eq_iff, text_eq_iff⟩, fun s w q earlier hm h ms => ?_⟩
  have hm' : (s.task w).method = method := hm
  exact selectMove_discards (closes_of_trajectory hm' h).close ms

/-- In its first round a search that starts unassigned discards the move that leaves a variable so. -/
theorem fingerprints_foretell_null : ∃ p,
    ((Solver.oneOfTwo method).task .still).Trajectory (Solver.oneOfTwo method).run [p] ∧
      selectMove .oneOfTwo (close p.state).closed p.state.assignment [⟨0, .null⟩] = .ok none := by
  have hg : ((Solver.oneOfTwo method).task .still).generator = .ok _ := rfl
  obtain ⟨p, hl, hp⟩ := Task.launch_eq hg (Solver.oneOfTwo method).run
  refine ⟨p, .start hl, ?_⟩
  have hselect := fingerprints_foretell.2.2 (Solver.oneOfTwo method) .still p [] rfl (.start hl)
    [⟨0, .null⟩]
  have hstart : p.state.assignment = unassigned 3 := hp.assignment
  have hback : leadsBack ([p].map Run.values) p.state.assignment ⟨0, .null⟩ = true := by
    rw [List.map_cons, Run.values, hstart]
    rfl
  refine hselect.trans ?_
  rw [List.filter_cons_of_neg (by simp only [hback, Bool.not_true, Bool.false_eq_true, not_false_eq_true])]
  rfl

end Search.Greedy

end LocalSat
