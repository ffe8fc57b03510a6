import LocalSat.Proofs.Greedy.Step

/-!
# Steepest descent

Which move the greedy search selects from a list: the first of those open moves that leave the fewest
clauses unsatisfied, and none exactly when every move leads into closed values (`Selected`). The loop
keeps the best move so far, which is what is selected from the moves it has gone through
(`Selected.pass`, `Selected.better`).

`selectFrom` looks at where a move leads without making it. `selectInPlace` is the same loop on the state
of a search, which makes each open move for a moment to count and takes it back; it finds the same and
leaves the whole state as it was (`selectInPlace_eq`). Main statement: `selectMove_steepest`.
-/

namespace LocalSat.Search.Greedy

open Assignment

/-! ## Selection in place -/

/-- What a failed tentative count means to the search. -/
def blockFault : BlockError OutOfRange → Fault
  | .entering e => .outOfRange e
  | .inside e => .outOfRange e
  | .leaving => .emptyHistory

/-- Goes through the moves on the assignment of the search: each open move is made to count what it
leaves unsatisfied, and taken back. -/
def selectInPlace (f : Formula) :
    Option (Move × Nat) → List Move → State → State × Except Fault (Option (Move × Nat))
  | best, [], s => (s, .ok best)
  | best, m :: ms, s =>
    match s.assignment.fingerprintAfter m with
    | .error e => (s, .error (.outOfRange e))
    | .ok key =>
      if s.closed.contains key then selectInPlace f best ms s
      else match s.assignment.tentatively m (fun b => (b, f.unsatisfiedCount b.look)) with
        | (a, .error e) => ({ s with assignment := a }, .error (blockFault e))
        | (a, .ok n) => selectInPlace f (better best m n) ms { s with assignment := a }

/-! ## What is selected -/

section
variable (f : Formula) (closed : Std.HashSet Fingerprint) (a : Assignment)

/-- The move leads into closed values. -/
def Shut (m : Move) : Prop := ∃ b, a.apply m = .ok b ∧ b.fingerprint ∈ closed

/-- The move leads into values that are not closed, and leaves `n` clauses unsatisfied. -/
def Opens (m : Move) (n : Nat) : Prop :=
  ∃ b, a.apply m = .ok b ∧ b.fingerprint ∉ closed ∧ f.unsatisfiedCount b.look = .ok n

/-- What is selected from moves, with the number of clauses that it leaves unsatisfied: nothing if all are
shut, else the open move that leaves fewer than the open ones before it and no more than those after. -/
inductive Selected (ms : List Move) : Option (Move × Nat) → Prop
  | nothing (shut : ∀ m ∈ ms, Shut closed a m) : Selected ms none
  | move {before after : List Move} {m : Move} {n : Nat} (split : ms = before ++ m :: after)
      (opens : Opens f closed a m n) (earlier : ∀ m' ∈ before, ∀ k, Opens f closed a m' k → n < k)
      (later : ∀ m' ∈ after, ∀ k, Opens f closed a m' k → n ≤ k) : Selected ms (some (m, n))

end

section
variable {f : Formula} {closed : Std.HashSet Fingerprint} {a : Assignment} {m : Move} {n k : Nat}

theorem Shut.not_opens (h : Shut closed a m) : ¬ Opens f closed a m n := by
  obtain ⟨b, hb, hc⟩ := h
  rintro ⟨b', hb', hc', -⟩
  rw [hb] at hb'
  cases hb'
  exact hc' hc

theorem Opens.unique (h : Opens f closed a m n) (h' : Opens f closed a m k) : n = k := by
  obtain ⟨b, hb, -, hn⟩ := h
  obtain ⟨b', hb', -, hk⟩ := h'
  rw [hb] at hb'
  cases hb'
  rw [hn] at hk
  cases hk
  rfl

/-- Nothing is selected exactly if all moves are shut. -/
theorem Selected.eq_none_iff {ms : List Move} {found : Option (Move × Nat)}
    (h : Selected f closed a ms found) : found = none ↔ ∀ m ∈ ms, Shut closed a m := by
  cases h with
  | nothing shut => exact ⟨fun _ => shut, fun _ => rfl⟩
  | move split opens earlier later =>
    refine ⟨fun he => (by cases he), fun hs => ?_⟩
    exact absurd opens (hs _ (by simp [split])).not_opens

theorem selected_nil : Selected f closed a [] none :=
  .nothing (by simp)

/-- A selected move stays selected past one that opens to no fewer unsatisfied clauses. -/
theorem Selected.kept {ms before after : List Move} {m₀ : Move} (split : ms = before ++ m₀ :: after)
    (opens : Opens f closed a m₀ n) (earlier : ∀ m' ∈ before, ∀ k, Opens f closed a m' k → n < k)
    (later : ∀ m' ∈ after, ∀ k, Opens f closed a m' k → n ≤ k)
    (hm : ∀ k, Opens f closed a m k → n ≤ k) : Selected f closed a (ms ++ [m]) (some (m₀, n)) := by
  have hsplit : ms ++ [m] = before ++ m₀ :: (after ++ [m]) := by simp [split]
  refine .move hsplit opens earlier fun m' hm' k hk => ?_
  rcases List.mem_append.1 hm' with hm' | hm'
  · exact later m' hm' k hk
  · rw [List.mem_singleton.1 hm'] at hk
    exact hm k hk

/-- Going past a shut move changes nothing. -/
theorem Selected.pass {ms : List Move} {best : Option (Move × Nat)} (h : Selected f closed a ms best)
    (hm : Shut closed a m) : Selected f closed a (ms ++ [m]) best := by
  cases h with
  | nothing shut =>
    refine .nothing fun m' hm' => ?_
    rcases List.mem_append.1 hm' with hm' | hm'
    · exact shut m' hm'
    · exact List.mem_singleton.1 hm' ▸ hm
  | move split opens earlier later =>
    exact Selected.kept split opens earlier later fun k hk => absurd hk hm.not_opens

/-- Going past an open move keeps the better of it and the best so far. -/
theorem Selected.better {ms : List Move} {best : Option (Move × Nat)} (h : Selected f closed a ms best)
    (hm : Opens f closed a m n) : Selected f closed a (ms ++ [m]) (better best m n) := by
  cases h with
  | nothing shut =>
    exact .move rfl hm (fun m' hm' k hk => absurd hk (shut m' hm').not_opens) (by simp)
  | @move before after m₀ n₀ split opens earlier later =>
    by_cases hlt : n < n₀
    · simp only [Greedy.better, if_pos hlt]
      refine .move rfl hm (fun m' hm' k hk => ?_) (by simp)
      rw [split] at hm'
      rcases List.mem_append.1 hm' with hm' | hm'
      · exact hlt.trans (earlier m' hm' k hk)
      · rcases List.mem_cons.1 hm' with rfl | hm'
        · exact opens.unique hk ▸ hlt
        · exact hlt.trans_le (later m' hm' k hk)
    · simp only [Greedy.better, if_neg hlt]
      exact Selected.kept split opens earlier later fun k hk => hm.unique hk ▸ Nat.le_of_not_lt hlt

end

/-! ## The loop -/

section
variable {f : Formula} {s : State}

theorem opens_of_apply {m : Move} {b : Assignment} (hs : s.assignment.size = f.numVariables)
    (hb : s.assignment.apply m = .ok b) (hc : b.fingerprint ∉ s.closed) :
    ∃ n, f.unsatisfiedCount b.look = .ok n ∧ Opens f s.closed s.assignment m n := by
  have hn := unsatisfiedCount_eq (reads_look ((size_apply hb).trans hs))
  exact ⟨_, hn, b, hb, hc, hn⟩

/-- The selection in place finds what the selection finds, and leaves the state as it was; both come from
the moves gone through and those to come to what is selected from them all. -/
theorem selectInPlace_eq (hs : s.assignment.size = f.numVariables) {past ms : List Move}
    {best : Option (Move × Nat)} (hbest : Selected f s.closed s.assignment past best)
    (hms : ∀ m ∈ ms, ∃ b, s.assignment.apply m = .ok b) :
    ∃ found, selectFrom f s.closed s.assignment best ms = .ok found ∧
      selectInPlace f best ms s = (s, .ok found) ∧
      Selected f s.closed s.assignment (past ++ ms) found := by
  induction ms generalizing past best with
  | nil => exact ⟨best, rfl, rfl, by simpa using hbest⟩
  | cons m ms ih =>
    obtain ⟨b, hb⟩ := hms m List.mem_cons_self
    have hrest : ∀ m' ∈ ms, ∃ b, s.assignment.apply m' = .ok b :=
      fun m' hm' => hms m' (List.mem_cons_of_mem m hm')
    rw [List.append_cons]
    unfold selectFrom selectInPlace
    rw [fingerprintAfter_of_apply hb]
    by_cases hc : b.fingerprint ∈ s.closed
    · obtain ⟨found, hfrom, hplace, hsel⟩ := ih (hbest.pass ⟨b, hb, hc⟩) hrest
      simp only [Std.HashSet.contains_iff_mem.2 hc, if_true]
      exact ⟨found, hfrom, hplace, hsel⟩
    · obtain ⟨n, hn, hopens⟩ := opens_of_apply hs hb hc
      have hscore : score f s.assignment m = .ok n := by rw [score, hb]; exact hn
      have htry := tentatively_of_apply hb fun c => f.unsatisfiedCount c.look
      rw [hn] at htry
      obtain ⟨found, hfrom, hplace, hsel⟩ := ih (hbest.better hopens) hrest
      simp only [mt Std.HashSet.contains_iff_mem.1 hc, hscore, htry]
      exact ⟨found, hfrom, hplace, hsel⟩

/-- **Steepest descent.** From moves of variables in range, whatever values they give, the search selects
the first of the open ones that leave the fewest clauses unsatisfied, and none exactly if all are shut;
made in place, the selection leaves the state of the search as it was: the values, their history and the
closed values. -/
theorem selectMove_steepest (hs : s.assignment.size = f.numVariables) {ms : List Move}
    (hms : ∀ m ∈ ms, m.InRange s.assignment.size) :
    ∃ found, selectMove f s.closed s.assignment ms = .ok (found.map Prod.fst) ∧
      (found = none ↔ ∀ m ∈ ms, Shut s.closed s.assignment m) ∧
      Selected f s.closed s.assignment ms found ∧ selectInPlace f none ms s = (s, .ok found) := by
  obtain ⟨found, hfrom, hplace, hsel⟩ :=
    selectInPlace_eq hs selected_nil fun m hm => exists_apply_iff.2 (hms m hm)
  exact ⟨found, by rw [selectMove, hfrom]; rfl, hsel.eq_none_iff, hsel, hplace⟩

end

/-- A search of `x₀ ∧ x₁` at false and false after a move, where true and false is closed. -/
def tied : State where
  generator := ⟨0, 1, none⟩
  assignment := ⟨#[some false, some false], [⟨0, some true⟩]⟩
  phase := .searching
  iterations := 1
  runs := 1
  best := 1
  closed := {[1, 0]}
  moves := 1
  backtracks := 0

theorem selectMove_steepest_tied :
    let f : Formula := ⟨2, [⟨[⟨0, false⟩], by decide⟩, ⟨[⟨1, false⟩], by decide⟩], [], by decide⟩
    let ms : List Move := [⟨0, .int 1⟩, ⟨1, .null⟩, ⟨-1, .bool true⟩, ⟨1, .int 1⟩]
    selectMove f tied.closed tied.assignment ms = .ok (some ⟨-1, .bool true⟩) ∧
      (selectInPlace f none ms tied).1 = tied := by
  intro f ms
  have hms : ∀ m ∈ ms, m.InRange tied.assignment.size := by decide
  obtain ⟨found, -, -, -, hplace⟩ := selectMove_steepest (f := f) (s := tied) rfl hms
  refine ⟨?_, by rw [hplace]⟩
  have h0 : tied.assignment.fingerprintAfter ⟨0, .int 1⟩ = .ok [1, 0] := by rfl
  have h1 : tied.assignment.fingerprintAfter ⟨1, .null⟩ = .ok [0, 255] := by rfl
  have h2 : tied.assignment.fingerprintAfter ⟨-1, .bool true⟩ = .ok [0, 1] := by rfl
  have h3 : tied.assignment.fingerprintAfter ⟨1, .int 1⟩ = .ok [0, 1] := by rfl
  have s1 : score f tied.assignment ⟨1, .null⟩ = .ok 2 := by rfl
  have s2 : score f tied.assignment ⟨-1, .bool true⟩ = .ok 1 := by rfl
  have s3 : score f tied.assignment ⟨1, .int 1⟩ = .ok 1 := by rfl
  have hc : tied.closed = {[1, 0]} := rfl
  simp [selectMove, ms, selectFrom, h0, h1, h2, h3, s1, s2, s3, hc, Greedy.better, Except.map]

end LocalSat.Search.Greedy
