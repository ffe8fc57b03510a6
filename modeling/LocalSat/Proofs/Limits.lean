import LocalSat.Proofs.Greedy.Exhaustion
import LocalSat.Proofs.Walk.Bound

/-!
# Limits only cut a run short

Runs of one solver under different limits are on one course, so they differ only in where they stop. A
capped solver stops where its course stops searching or after as many rounds as the cap allows, whichever
comes first, and it returns unless it is stopped by a cap of too many digits, which cannot be noted
(`capped_cases`). Main statement: what a cap below, at and above the length of a run makes of it
(`solver_cut_short`). An exhausted search has made one round that counts as no iteration, so there the cap
has to be larger by one.
-/

namespace LocalSat

namespace Search

/-- The outcomes agree in everything but the runtime. -/
def Outcome.Agrees (o o' : Outcome) : Prop := { o with runtime := o'.runtime } = o'

/-- Outcomes read off one state agree. -/
theorem Task.Ended.agrees {t t' : Task} {s : State} {o o' : Outcome} (h : t.Ended s o)
    (h' : t'.Ended s o') (ha : t.Alike t') : o.Agrees o' := by
  have hst : o.status = o'.status := h.status.trans h'.status.symm
  have hit : o.iterations = o'.iterations := h.iterations.trans h'.iterations.symm
  have hmo : o.model = o'.model := by rw [h.model, h'.model, hst]
  have hsat : o.satisfiedClauses = o'.satisfiedClauses := by
    have hn := h.satisfied
    rw [ha.formula, h'.satisfied] at hn
    exact (Except.ok.inj hn).symm
  have htot : o.totalClauses = o'.totalClauses := by rw [h.total, h'.total, ha.formula]
  have hme : o.method = o'.method := by rw [h.method, h'.method, ha.method]
  have hco : o.counters = o'.counters := by
    rw [h.counters, h'.counters, Task.counters, Task.counters, ha.method]
  cases o
  cases o'
  simp only at hst hit hmo hsat htot hme hco
  simp only [Outcome.Agrees, hst, hit, hmo, hsat, htot, hme, hco]

end Search

namespace Solver

open Search

/-- The solver with the given cap on its iterations, if any, and no limit on its time. -/
def capped (s : Solver) (cap : Option Int) : Solver :=
  { s with settings := { s.settings with maxIterations := Value.ofOption .int cap, timeout := .null } }

/-- Under the cap the solver returns the outcome, but for the runtime, by whatever clock. -/
def Yields (s : Solver) (cap : Option Int) (o : Outcome) : Prop :=
  ∀ w, ∃ s' o', (s.capped cap).solve? w = some (s', .ok o') ∧ o'.Agrees o

/-- The cap stops the solver after as many iterations as it allows, by whatever clock. -/
def TimesOut (s : Solver) (cap : Int) : Prop :=
  ∀ w, ∃ s' o, (s.capped (some cap)).solve? w = some (s', .ok o) ∧ o.status = .timeout ∧
    (o.iterations : Int) = max cap 0

/-- The cap fails the solver by the number of its digits, by whatever clock. -/
def Balks (s : Solver) (cap : Int) : Prop :=
  ∀ w, ∃ s', (s.capped (some cap)).solve? w = some (s', .error .tooLong)

/-- The cap does not let the solver come to its end: it stops it, or fails it where it would stop it. -/
structure CutOff (s : Solver) (cap : Int) : Prop where
  timesOut : Text.Printable cap → s.TimesOut cap
  balks : ¬ Text.Printable cap → s.Balks cap

section
variable {s s' : Solver} {w w' : Surroundings} {o : Outcome} {g : Random.Generator} {M : Int} {m n : Nat}

theorem alike_capped (s : Solver) (cap : Option Int) (w w' : Surroundings) :
    (s.task w).Alike ((s.capped cap).task w') :=
  ⟨rfl, rfl, rfl, rfl⟩

/-- A capped run does not go beyond its cap, and comes up to it if it still searches where it stops, which
it does only at a cap that can be noted. -/
theorem stops_at_cap (h : ((s.capped (some M)).task w).Stops g s.run.state n) :
    n ≤ M.toNat ∧ ((((s.capped (some M)).task w).course g s.run.state n).phase = .searching →
      n = M.toNat ∧ Text.Printable M) := by
  have hle : n ≤ M.toNat := by
    by_contra hlt
    have hM := (Task.reachedBy_cap_iff rfl).1 (h.before M.toNat (by omega)).2
    simp only [Bool.false_eq_true, iff_false] at hM
    omega
  refine ⟨hle, fun hp => ?_⟩
  obtain ⟨hreached, hprint⟩ := h.stopped rfl hp
  have hM := (Task.reachedBy_cap_iff rfl).1 hreached
  simp only [iff_true] at hM
  exact ⟨by omega, hprint⟩

/-- What a capped run reports that still searches where it stops. -/
theorem timedOut_of_stops (hn : ((s.capped (some M)).task w).Stops g s.run.state n)
    (he : ((s.capped (some M)).task w).Ended (((s.capped (some M)).task w).course g s.run.state n) o)
    (hp : (((s.capped (some M)).task w).course g s.run.state n).phase = .searching) :
    o.status = .timeout ∧ (o.iterations : Int) = max M 0 := by
  have hM : n = M.toNat := ((stops_at_cap hn).2 hp).1
  refine ⟨by rw [he.status, hp]; rfl, ?_⟩
  rw [he.iterations, hn.iterations_eq (by rw [hp]; decide)]
  omega

/-- A solver with a cap comes to an answer, whatever limits its time. -/
theorem solve?_isSome_of_cap (hm : s.method.Regular) (hs : s.Seeded)
    (hM : s.settings.maxIterations = .int M) (w : Surroundings) : ∃ s' x, s.solve? w = some (s', x) := by
  obtain ⟨g, hg⟩ := hs.generator w
  have hcap := maxIterations_of_int hM w
  have hrounds : (s.task w).rounds = M.toNat + 2 := by
    rw [Task.rounds, hcap]
    rfl
  obtain ⟨r', x, hx⟩ := Task.solveWithin_answers (t := s.task w) (r := s.run) hm hg
    (fun q rest h => h.iterations_le_cap hm hg hcap) (Nat.le_refl (M.toNat + 2))
  exact ⟨_, _, by rw [solve?, hrounds, solveWithin, hx]; rfl⟩

/-- A run whose only limit is a cap fails where it comes up to the cap, for the number of its digits. -/
theorem reached_of_fails {q p' : Run} {started : Float} {e : Fault} (hM : s.settings.maxIterations = .int M)
    (ht : s.settings.timeout = .null) (hf : (s.task w).Fails started q p' e) :
    e = .tooLong ∧ ¬ Text.Printable M ∧ M ≤ q.state.iterations := by
  have hcap := maxIterations_of_int hM w
  have htime := timeout_of_null ht w
  obtain ⟨rfl, -⟩ := hf.tooLong (fun kind => by simp [hcap]) (fun kind => by simp [htime])
  obtain ⟨hreached, hprint⟩ | ⟨-, hnever, -⟩ := Task.limited_reached hf.untested (.inr rfl)
  · rw [hcap] at hprint
    exact ⟨rfl, fun hp => by simpa using hprint.2 hp, ((Task.reachedBy_cap_iff hcap).1 hreached).2 rfl⟩
  · exact absurd htime hnever

/-- A run that fails at its cap has searched up to it. -/
theorem searching_of_fails {q p' : Run} {rest : List Run} {started : Float} {e : Fault}
    (hm : s.method.Regular) (hg : ((s.capped (some M)).task w).generator = .ok g)
    (h : ((s.capped (some M)).task w).Trajectory s.run (q :: rest))
    (hf : ((s.capped (some M)).task w).Fails started q p' e) : e = .tooLong ∧ ¬ Text.Printable M ∧
      ∀ i ≤ M.toNat, (((s.capped (some M)).task w).course g s.run.state i).phase = .searching := by
  obtain ⟨he, hprint, hM⟩ := reached_of_fails (s := s.capped (some M)) rfl rfl hf
  have hlen := h.length_of_searching hm hf.searching
  refine ⟨he, hprint, fun i hi => ?_⟩
  rcases Nat.lt_or_ge i rest.length with hlt | hge
  · exact (h.before hm hg i hlt).1
  · obtain rfl : i = rest.length := by omega
    exact (h.state_eq hm hg) ▸ hf.searching

/-- **Where a cap stops a run**, unless it fails it there. -/
theorem capped_cases (hm : s.method.Regular) (hs : s.Seeded) (hg : (s.task w).generator = .ok g) (M : Int)
    (w' : Surroundings) :
    (∃ s' o n, (s.capped (some M)).solve? w' = some (s', .ok o) ∧
      ((s.capped (some M)).task w').Stops g s.run.state n ∧ n ≤ M.toNat ∧
      (((s.task w).course g s.run.state n).phase = .searching → n = M.toNat ∧ Text.Printable M) ∧
      s'.run.state = (s.task w).course g s.run.state n ∧
      ((s.capped (some M)).task w').Ended ((s.task w).course g s.run.state n) o) ∨
    ((∃ s', (s.capped (some M)).solve? w' = some (s', .error .tooLong)) ∧ ¬ Text.Printable M ∧
      ∀ i ≤ M.toNat, ((s.task w).course g s.run.state i).phase = .searching) := by
  have ha := alike_capped s (some M) w w'
  obtain ⟨s', x, h⟩ := solve?_isSome_of_cap (s := s.capped (some M)) hm hs rfl w'
  obtain ⟨o, rfl⟩ | ⟨e, q, rest, rfl, htr, hf⟩ := solveWithin_cases (s := s.capped (some M)) hm hg h
  · obtain ⟨n, hn, hstate, he⟩ := Returns.stops ⟨_, h⟩ hm hg
    obtain ⟨hle, heq⟩ := stops_at_cap hn
    rw [← ha.course_eq] at heq
    exact .inl ⟨s', o, n, h, hn, hle, heq, hstate.trans (ha.course_eq g s.run.state n).symm,
      by rw [ha.course_eq]; exact he⟩
  · obtain ⟨rfl, hprint, hsearch⟩ := searching_of_fails hm hg htr hf
    exact .inr ⟨⟨s', h⟩, hprint, fun i hi => by rw [ha.course_eq]; exact hsearch i hi⟩

theorem cutOff_of_capped {cap : Option Int} (h : (s.capped cap).CutOff M) : s.CutOff M :=
  ⟨h.timesOut, h.balks⟩

/-- A cap that cuts the solver off does not leave it an end of its own. -/
theorem CutOff.not_yields (h : s.CutOff M) (ho : o.status ≠ .timeout) : ¬ s.Yields (some M) o := by
  intro hy
  obtain ⟨s₁, o₁, h₁, ha⟩ := hy .still
  by_cases hprint : Text.Printable M
  · obtain ⟨s₂, o₂, h₂, ht, -⟩ := h.timesOut hprint .still
    rw [h₁] at h₂
    cases h₂
    exact ho ((congrArg Outcome.status ha).symm.trans ht)
  · obtain ⟨s₂, h₂⟩ := h.balks hprint .still
    rw [h₁] at h₂
    cases h₂

/-- A cap under which nothing but its own end is reported does not let the solver come to its end. -/
theorem cutOff_of_searching (hm : s.method.Regular) (hs : s.Seeded) (hg : (s.task w).generator = .ok g)
    (h : ∀ w' s' o n, (s.capped (some M)).solve? w' = some (s', .ok o) → n ≤ M.toNat →
      ((s.capped (some M)).task w').Ended ((s.task w).course g s.run.state n) o →
      ((s.task w).course g s.run.state n).phase = .searching) : s.CutOff M := by
  constructor
  case timesOut =>
    intro hprint w'
    obtain ⟨s', o, n, ho, hn, hle, -, -, he⟩ | ⟨-, hlong, -⟩ := capped_cases hm hs hg M w'
    · have hp := h w' s' o n ho hle he
      rw [(alike_capped s (some M) w w').course_eq] at hp he
      exact ⟨s', o, ho, timedOut_of_stops hn he hp⟩
    · exact absurd hprint hlong
  case balks =>
    intro hlong w'
    obtain ⟨s', o, n, ho, -, hle, heq, -, he⟩ | ⟨hfail, -⟩ := capped_cases hm hs hg M w'
    · exact absurd (heq (h w' s' o n ho hle he)).2 hlong
    · exact hfail

/-- A cap that the course does not search up to leaves the outcome as it is. -/
theorem yields_of_stops (hm : s.method.Regular) (hs : s.Seeded) (hg : (s.task w).generator = .ok g)
    (hn : (s.task w).Stops g s.run.state n)
    (hp : ((s.task w).course g s.run.state n).phase ≠ .searching)
    (he : (s.task w).Ended ((s.task w).course g s.run.state n) o) (hle : n ≤ M.toNat) :
    s.Yields (some M) o := by
  intro w'
  obtain ⟨s', o', k, ho, hk, hle', heq, -, he'⟩ | ⟨-, -, hsearch⟩ := capped_cases hm hs hg M w'
  · have hkn : k ≤ n := hk.le (alike_capped s (some M) w w') hp
    have hkn' : k = n := hn.eq_of_le hkn fun h => (heq h).1 ▸ hle
    rw [hkn'] at he'
    exact ⟨s', o', ho, he'.agrees he ⟨rfl, rfl, rfl, rfl⟩⟩
  · exact absurd (hsearch n hle) hp

/-- Without a cap a run ends where it ends at any cap that does not stop it. -/
theorem yields_none (hm : s.method.Regular) (hs : s.Seeded) (hg : (s.task w).generator = .ok g)
    (hn : (s.task w).Stops g s.run.state n)
    (hp : ((s.task w).course g s.run.state n).phase ≠ .searching)
    (he : (s.task w).Ended ((s.task w).course g s.run.state n) o)
    (hroom : n + 2 ≤ s.method.bound s.formula) : s.Yields none o := by
  intro w'
  have ha := alike_capped s none w w'
  have hg' : ((s.capped none).task w').generator = .ok g := hg
  have hbound : ∀ q rest, ((s.capped none).task w').Trajectory s.run (q :: rest) →
      q.state.iterations ≤ n := by
    intro q rest ht
    have hcount := ht.length_eq hm
    by_contra hlt
    have hsearch := (ht.before hm hg' n (by omega)).1
    rw [← ha.course_eq] at hsearch
    exact hp hsearch
  obtain ⟨s', o', h⟩ := Uncapped.solve?_isSome (s := s.capped none) ⟨rfl, rfl⟩ hm hs w' hbound hroom
  obtain ⟨k, hk, -, he'⟩ := Returns.stops ⟨_, h⟩ hm hg'
  refine ⟨s', o', h, ?_⟩
  have hkn : k = n := hn.eq_of_le (hk.le ha hp) fun h => by
    rw [ha.course_eq] at h
    cases (hk.stopped rfl h).1
  rw [hkn, ← ha.course_eq] at he'
  exact he'.agrees he ⟨rfl, rfl, rfl, rfl⟩

/-! ## What a cap makes of a run -/

theorem regular_of_method (h : s.method = Greedy.method ∨ s.method = Walk.method) : s.method.Regular := by
  rcases h with h | h
  · exact Greedy.regular h
  · exact Walk.regular h

/-- A run that ends on a model takes two rounds less than its method's bound. -/
theorem length_le_bound {q : Run} {rest : List Run} (hm : s.method = Greedy.method ∨ s.method = Walk.method)
    (h : (s.task w).Trajectory s.run (q :: rest)) (hq : q.state.phase = .solved) :
    rest.length + 2 ≤ s.method.bound s.formula := by
  rcases hm with hm | hm
  · have hle := Greedy.iterations_le (t := s.task w) hm h
    have hmb := Greedy.moveBound_le s.formula (s.task w).start
    rw [hm, h.length_of_ne (Greedy.regular hm) (by rw [hq]; decide)]
    show _ ≤ 2 * 3 ^ (Greedy.occurring s.formula).length + 2
    have hf : (s.task w).formula = s.formula := rfl
    rw [hf] at hle
    omega
  · exact Walk.length_le_bound (t := s.task w) hm h (by rw [hq]; decide)

/-- A satisfiable run stays as it is without a cap and under all caps that leave room for its
iterations, and is cut off by the others. -/
theorem Returns.satisfiable_cut (hm : s.method = Greedy.method ∨ s.method = Walk.method) (hs : s.Seeded)
    (h : s.Returns w s' o) (hsat : o.status = .satisfiable) :
    s.Yields none o ∧ ∀ M : Int, (o.iterations ≤ max M 0 → s.Yields (some M) o) ∧
      (max M 0 < o.iterations → s.CutOff M) := by
  have hreg := regular_of_method hm
  obtain ⟨g, hg⟩ := hs.generator w
  obtain ⟨q, rest, ht, hq, hstate, he⟩ := h.ended
  have hn := ht.stops hreg hg hq
  have hc := ht.state_eq hreg hg
  have hp : q.state.phase = .solved := by
    rw [he.status, Phase.status_eq_satisfiable_iff] at hsat
    exact hsat
  have hroom := length_le_bound hm ht hp
  rw [hc] at he hp
  have hp' : ((s.task w).course g s.run.state rest.length).phase ≠ .searching := by rw [hp]; decide
  rw [he.iterations, hn.iterations_eq (by rw [hp]; decide)]
  refine ⟨yields_none hreg hs hg hn hp' he hroom, fun M => ⟨fun hle => ?_, fun hlt => ?_⟩⟩
  · exact yields_of_stops hreg hs hg hn hp' he (by omega)
  · exact cutOff_of_searching hreg hs hg fun _ _ _ i _ hi _ => (hn.before i (by omega)).1

/-- An exhausted run stays as it is exactly under the caps above its iterations. -/
theorem Returns.exhausted_cut (hm : s.method = Greedy.method ∨ s.method = Walk.method) (hs : s.Seeded)
    (h : s.Returns w s' o) (hx : o.status = .exhausted) (M : Int) :
    (s.Yields (some M) o ↔ o.iterations < M) ∧ (M ≤ o.iterations → s.CutOff M) := by
  have hreg := regular_of_method hm
  obtain ⟨g, hg⟩ := hs.generator w
  obtain ⟨n, hn, -, he⟩ := h.stops hreg hg
  have hp : ((s.task w).course g s.run.state n).phase = .exhausted := by
    rw [he.status, Phase.status_eq_exhausted_iff] at hx
    exact hx
  -- the round that gave up counts as no iteration
  have hcount := hn.counted
  rw [hp, if_pos rfl, ← he.iterations] at hcount
  have hout : M ≤ o.iterations → s.CutOff M := fun hle =>
    cutOff_of_searching hreg hs hg fun _ _ _ i _ hi _ => (hn.before i (by omega)).1
  refine ⟨⟨fun hy => ?_, fun hlt => ?_⟩, hout⟩
  · by_contra hle
    exact (hout (by omega)).not_yields (by rw [hx]; decide) hy
  · exact yields_of_stops hreg hs hg hn (by rw [hp]; decide) he (by omega)

/-- A run that a limit stopped is the run under a cap at its iterations, if that can be noted. -/
theorem Returns.timeout_cut (hm : s.method = Greedy.method ∨ s.method = Walk.method) (hs : s.Seeded)
    (h : s.Returns w s' o) (hx : o.status = .timeout) (hprint : Text.Printable o.iterations)
    (w' : Surroundings) :
    ∃ s₁ o₁, (s.capped (some o.iterations)).solve? w' = some (s₁, .ok o₁) ∧ o₁.Agrees o ∧
      s₁.run.state = s'.run.state := by
  have hreg := regular_of_method hm
  obtain ⟨g, hg⟩ := hs.generator w
  obtain ⟨n, hn, hstate, he⟩ := h.stops hreg hg
  have hp : ((s.task w).course g s.run.state n).phase = .searching := by
    rw [he.status, Phase.status_eq_timeout_iff] at hx
    exact hx
  have hcount : o.iterations = n := he.iterations.trans (hn.iterations_eq (by rw [hp]; decide))
  obtain ⟨s₁, o₁, k, h₁, -, hle, heq, hstate', he'⟩ | ⟨-, hlong, -⟩ :=
    capped_cases hreg hs hg o.iterations w'
  · have hk : k = n := hn.eq_of_le (by omega) fun h => by
      have := (heq h).1
      omega
    rw [hk] at hstate' he'
    exact ⟨s₁, o₁, h₁, he'.agrees he ⟨rfl, rfl, rfl, rfl⟩, hstate'.trans hstate.symm⟩
  · exact absurd hprint hlong

/-- Every cap cuts a random walk off whose formula cannot be satisfied. -/
theorem walk_cutOff (hm : s.method = Walk.method) (hs : s.Seeded) (hf : ¬ s.formula.Satisfiable)
    (M : Int) : s.CutOff M := by
  have hreg : s.method.Regular := Walk.regular hm
  obtain ⟨g, hg⟩ := hs.generator .still
  refine cutOff_of_searching hreg hs hg fun w' s' o n ho _ he => ?_
  obtain ⟨q, rest, ht, -, -, he'⟩ := Returns.ended ⟨_, ho⟩
  have hsc := ht.scored hreg q List.mem_cons_self
  have hst : q.state.phase.status = ((s.task .still).course g s.run.state n).phase.status :=
    he'.status.symm.trans he.status
  have hp : q.state.phase = .searching := by
    cases hp : q.state.phase with
    | searching => rfl
    | solved => exact absurd ((hsc.solved_iff.1 hp).satisfiable hsc.size) hf
    | exhausted => exact absurd hp (Walk.not_exhausted (t := (s.capped (some M)).task w') hm ht)
  rw [hp] at hst
  exact Phase.status_eq_timeout_iff.1 hst.symm

end

/-- What caps make of the runs of a solver. -/
structure CutShort (s : Solver) : Prop where
  /-- A satisfiable run is the same without a cap and under all caps that leave room for its
  iterations. -/
  satisfiable : ∀ cap w s' o, (s.capped cap).Returns w s' o → o.status = .satisfiable →
    s.Yields none o ∧ ∀ M : Int, (o.iterations ≤ max M 0 → s.Yields (some M) o) ∧
      (max M 0 < o.iterations → s.CutOff M)
  /-- An exhausted run needs a cap above its iterations. -/
  exhausted : ∀ w s' o, (s.capped none).Returns w s' o → o.status = .exhausted →
    ∀ M : Int, (s.Yields (some M) o ↔ o.iterations < M) ∧ (M ≤ o.iterations → s.CutOff M)
  unsatisfiable : s.method = Walk.method → ¬ s.formula.Satisfiable → ∀ M, s.CutOff M
  /-- What a limit of any kind stops, a cap at the iterations made stops in the same state. -/
  timeout : ∀ w s' o, s.Returns w s' o → o.status = .timeout → Text.Printable o.iterations → ∀ w',
    ∃ s₁ o₁, (s.capped (some o.iterations)).solve? w' = some (s₁, .ok o₁) ∧ o₁.Agrees o ∧
      s₁.run.state = s'.run.state

/-- **Limits only cut a run short.** -/
theorem solver_cut_short {s : Solver} (hm : s.method = Greedy.method ∨ s.method = Walk.method)
    (hs : s.Seeded) : s.CutShort where
  satisfiable cap _ _ _ h hsat := by
    obtain ⟨hnone, hcaps⟩ := Returns.satisfiable_cut (s := s.capped cap) hm hs h hsat
    exact ⟨hnone, fun M => ⟨(hcaps M).1, fun hlt => cutOff_of_capped ((hcaps M).2 hlt)⟩⟩
  exhausted _ _ _ h hx M := by
    obtain ⟨hiff, hout⟩ := Returns.exhausted_cut (s := s.capped none) hm hs h hx M
    exact ⟨hiff, fun hle => cutOff_of_capped (hout hle)⟩
  unsatisfiable hw hf M := walk_cutOff hw hs hf M
  timeout _ _ _ h hx hprint w := h.timeout_cut hm hs hx hprint w

theorem solver_cut_short_allOverTwo : ∃ o : Outcome, o.status = .exhausted ∧
    ({ Solver.oneOfTwo Greedy.method with formula := Greedy.allOverTwo } : Solver).Yields
      (some (o.iterations + 1)) o ∧
    ({ Solver.oneOfTwo Greedy.method with formula := Greedy.allOverTwo } : Solver).TimesOut 0 := by
  obtain ⟨s', o, h, hx⟩ := Greedy.exhausted_of_not_satisfiable
    (s := { Solver.oneOfTwo Greedy.method with formula := Greedy.allOverTwo }) rfl ⟨7, rfl⟩ ⟨rfl, rfl⟩
    Greedy.not_satisfiable_allOverTwo .still
  have hcut := (solver_cut_short
    (s := { Solver.oneOfTwo Greedy.method with formula := Greedy.allOverTwo })
    (Or.inl rfl) ⟨7, rfl⟩).exhausted .still s' o h hx
  exact ⟨o, hx, (hcut _).1.2 (by omega), ((hcut 0).2 (by omega)).timesOut (by decide +kernel)⟩

/-- A cap of too many digits does not time a walk out whose formula cannot be satisfied. -/
theorem not_timesOut_long : ¬ Greedy.allOverTwo.Satisfiable ∧
    ¬ ({ Solver.oneOfTwo Walk.method with formula := Greedy.allOverTwo } : Solver).TimesOut
      (-Text.beyondDigits) := by
  refine ⟨Greedy.not_satisfiable_allOverTwo, fun h => ?_⟩
  have hcut := walk_cutOff (s := { Solver.oneOfTwo Walk.method with formula := Greedy.allOverTwo }) rfl
    ⟨7, rfl⟩ Greedy.not_satisfiable_allOverTwo (-Text.beyondDigits)
  obtain ⟨s₁, h₁⟩ := hcut.balks
    Text.not_printable_neg_beyondDigits .still
  obtain ⟨s₂, o, h₂, -⟩ := h .still
  rw [h₁] at h₂
  cases h₂

end Solver

end LocalSat
