import Mathlib.Data.Fintype.BigOperators
import Mathlib.Data.Fintype.Option
import LocalSat.Proofs.Course
import LocalSat.Proofs.Walk

/-!
# How long a random walk can take

Where a walk goes depends on its `place` alone, the generator and the values that it is at, and there are
fewer places than its bound. A walk that came to one place twice would go round in a circle for ever, so
a walk that ends does so within its bound. Main statement: `length_le_bound`.
-/

namespace LocalSat.Search.Walk

open LocalSat.Random

/-! ## Places -/

/-- What the further course of a walk depends on. -/
def place (s : State) : Generator × Values := (s.generator, s.assignment.values)

/-- Where one step of the walk leads. -/
def nextPlace (f : Formula) (x : Generator × Values) : Generator × Values :=
  let (i, g) := x.1.below f.numVariables
  let (b, g) := g.coin
  (g, (⟨x.2, []⟩ : Assignment).write i (some b))

theorem increment_nextPlace (f : Formula) (x : Generator × Values) :
    (nextPlace f x).1.increment = x.1.increment := by
  have hi := Generator.increment_below f.numVariables x.1
  unfold nextPlace
  generalize x.1.below f.numVariables = draw at hi ⊢
  obtain ⟨i, g⟩ := draw
  have hc := Generator.increment_coin g
  simp only at hi ⊢
  generalize g.coin = flip at hc ⊢
  exact hc.trans hi

theorem place_step {f : Formula} {s s' : State} (h : step f s = (s', .ok ())) :
    place s' = nextPlace f (place s) := by
  unfold step at h
  unfold nextPlace
  split at h
  · cases h
  · rw [show (place s).1 = s.generator from rfl]
    generalize s.generator.below f.numVariables = draw at h ⊢
    obtain ⟨i, g⟩ := draw
    simp only at h ⊢
    generalize g.coin = flip at h ⊢
    obtain ⟨b, g'⟩ := flip
    simp only at h ⊢
    split at h
    · cases h
    · rename_i a ha
      obtain ⟨old, -, rfl⟩ := Assignment.apply_eq_ok_iff.1 ha
      cases h
      have ht := Assignment.truth_assigning i b
      show (g', s.assignment.write i (Assignment.assigning i b).value.truth) = _
      rw [ht]
      rfl

/-! ## Along a trajectory -/

section
variable {t : Task} {g : Generator} {r q : Run} {rest : List Run}

theorem place_course (hm : t.method = method) (hg : t.generator = .ok g)
    (h : t.Trajectory r (q :: rest)) {i : Nat} (hi : i < rest.length) :
    place (t.course g r.state (i + 1)) = nextPlace t.formula (place (t.course g r.state i)) := by
  have hsc := h.scored_course (regular hm) hg (Nat.le_of_lt hi)
  have hs := (h.before (regular hm) hg i hi).1
  obtain ⟨s', hstep, -⟩ := step_eq hsc.size (numVariables_pos (hsc.not_solves hs))
  rw [Task.course, hm, Method.next_eq (m := method) hstep, ← place_step hstep]
  split <;> rfl

/-- **No place twice**: two visits of one place before the end would put another end before it. -/
theorem place_ne (hm : t.method = method) (hg : t.generator = .ok g) (h : t.Trajectory r (q :: rest))
    (hq : q.state.phase ≠ .searching) {i j : Nat} (hij : i < j) (hj : j < rest.length) :
    place (t.course g r.state i) ≠ place (t.course g r.state j) := by
  intro he
  -- from the two visits on the walk goes the same way
  have hsame : ∀ k, j + k ≤ rest.length →
      place (t.course g r.state (i + k)) = place (t.course g r.state (j + k)) := by
    intro k
    induction k with
    | zero => exact fun _ => he
    | succ k ih =>
      intro hk
      rw [← Nat.add_assoc, ← Nat.add_assoc, place_course hm hg h (by omega),
        place_course hm hg h (by omega), ih (by omega)]
  obtain ⟨k, hk⟩ : ∃ k, rest.length = j + k := ⟨rest.length - j, by omega⟩
  have hend := h.scored_course (regular hm) hg (Nat.le_refl rest.length)
  have hcut := h.scored_course (regular hm) hg (show i + k ≤ rest.length by omega)
  have hsearch := (h.before (regular hm) hg (i + k) (by omega)).1
  have hsolved : q.state.phase = .solved := by
    cases hp : q.state.phase with
    | searching => exact absurd hp hq
    | solved => rfl
    | exhausted => exact absurd hp (not_exhausted hm h)
  have hvalues : (t.course g r.state (i + k)).assignment.values =
      (t.course g r.state (j + k)).assignment.values := congrArg Prod.snd (hsame k (by omega))
  rw [h.state_eq (regular hm) hg, hend.solved_iff, State.Solves, hk, ← hvalues] at hsolved
  exact hcut.not_solves hsearch hsolved

theorem increment_course (hm : t.method = method) (hg : t.generator = .ok g)
    (h : t.Trajectory r (q :: rest)) : ∀ i ≤ rest.length,
      (t.course g r.state i).generator.increment = (t.course g r.state 0).generator.increment
  | 0, _ => rfl
  | i + 1, hi => by
    have hp := congrArg (fun x => x.1.increment) (place_course hm hg h hi)
    simp only [place, increment_nextPlace] at hp
    rw [hp]
    exact increment_course hm hg h i (Nat.le_of_succ_le hi)

/-! ## Counting places -/

/-- A place of the given number of variables, the increment of its generator apart. -/
abbrev Spot (n : Nat) : Type := Fin (2 ^ 128) × Option (Fin UInt32.size) × (Fin n → Option Bool)

/-- The spot that a walk is at. -/
def spot (n : Nat) (s : State) : Spot n :=
  (s.generator.state.toFin, s.generator.spare.map UInt32.toFin, fun v => s.assignment.values.getD v none)

theorem card_spot (n : Nat) : Fintype.card (Spot n) = 2 ^ 128 * ((2 ^ 32 + 1) * 3 ^ n) := by
  simp [UInt32.size]

theorem place_eq_of_spot {n : Nat} {s u : State} (hs : s.assignment.size = n) (hu : u.assignment.size = n)
    (hi : s.generator.increment = u.generator.increment) (h : spot n s = spot n u) : place s = place u := by
  simp only [spot, Prod.mk.injEq] at h
  obtain ⟨hstate, hspare, hvalues⟩ := h
  have hg : s.generator = u.generator := by
    have hspare' := Option.map_injective (fun _ _ => UInt32.toFin_inj.1) hspare
    exact Generator.ext (BitVec.toFin_inj.1 hstate) hi hspare'
  have hv : s.assignment.values = u.assignment.values := by
    refine Array.ext (hs.trans hu.symm) fun k hk hk' => ?_
    have hkn : k < n := hs ▸ hk
    simpa [hk, hk'] using congrFun hvalues ⟨k, hkn⟩
  rw [place, place, hg, hv]

/-- A walk that has ended has taken fewer rounds than its bound. -/
theorem length_le_bound (hm : t.method = method) (h : t.Trajectory r (q :: rest))
    (hq : q.state.phase ≠ .searching) : rest.length + 2 ≤ t.method.bound t.formula := by
  obtain ⟨r₀, hl⟩ := h.launched
  obtain ⟨g, hg⟩ := Task.generator_of_launch hl
  have hinj : Function.Injective fun i : Fin rest.length =>
      spot t.formula.numVariables (t.course g r.state i) := by
    have hne : ∀ i j : Fin rest.length, i < j → spot t.formula.numVariables (t.course g r.state i) ≠
        spot t.formula.numVariables (t.course g r.state j) := by
      intro i j hij he
      have hi := i.isLt
      have hj := j.isLt
      refine place_ne hm hg h hq hij hj (place_eq_of_spot
        (h.scored_course (regular hm) hg (by omega)).size
        (h.scored_course (regular hm) hg (by omega)).size ?_ he)
      rw [increment_course hm hg h i (by omega), increment_course hm hg h j (by omega)]
    intro i j he
    rcases lt_trichotomy i j with hij | rfl | hij
    · exact absurd he (hne i j hij)
    · rfl
    · exact absurd he.symm (hne j i hij)
  have hcard := Fintype.card_le_of_injective _ hinj
  rw [Fintype.card_fin, card_spot] at hcard
  have hpos : 1 ≤ 3 ^ t.formula.numVariables := Nat.one_le_pow _ _ (by decide)
  rw [hm]
  show _ ≤ 2 ^ 162 * 3 ^ t.formula.numVariables
  omega

end

end LocalSat.Search.Walk
