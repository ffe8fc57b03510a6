import LocalSat.Proofs.Greedy.Step

/-!
# What a greedy run has explored

`entered` reads off a trajectory the values that the run has entered by starting or moving forward, and
`path` those that it has entered and not gone back from. `Explored` is the invariant that ties them to
the search state: values that were entered and left are closed, closed values are falsified, and closed
values off the trail have only closed neighbours. A step keeps it (`Step.explored`), so it holds along
every trajectory (`explored`), where the trail of the assignment is the path (`trail_eq_path`).
-/

namespace LocalSat.Search

/-- The values that a run holds. -/
def Run.values (p : Run) : Values := p.state.assignment.values

/-- Number of moves that the state can take back. -/
def State.depth (s : State) : Nat := s.assignment.history.length

theorem State.depth_lt_of_apply {s s' : State} {m : Move}
    (h : s.assignment.apply m = .ok s'.assignment) : s.depth < s'.depth := by
  rw [depth, depth, Assignment.length_history_apply h]
  exact Nat.lt_succ_self _

theorem State.depth_lt_of_undo? {s s' : State} (h : s.assignment.undo? = some s'.assignment) :
    s'.depth < s.depth := by
  rw [depth, depth, Assignment.length_history_undo? h]
  exact Nat.lt_succ_self _

namespace Greedy

open Assignment

/-- The values entered by starting or by a move forward, the latest first. -/
def entered : List Run → List Values
  | [] => []
  | [p] => [p.values]
  | q :: p :: rest =>
    if p.state.depth < q.state.depth then q.values :: entered (p :: rest) else entered (p :: rest)

/-- The values entered by starting or by a move forward that has not been taken back, the latest
first. -/
def path : List Run → List Values
  | [] => []
  | [p] => [p.values]
  | q :: p :: rest =>
    if p.state.depth < q.state.depth then q.values :: path (p :: rest)
    else if q.state.depth < p.state.depth then (path (p :: rest)).tail
    else path (p :: rest)

/-- Number of moves forward. -/
def forwards : List Run → Nat
  | q :: p :: rest => forwards (p :: rest) + if p.state.depth < q.state.depth then 1 else 0
  | _ => 0

theorem length_entered : ∀ (rest : List Run) (q : Run),
    (entered (q :: rest)).length = forwards (q :: rest) + 1
  | [], _ => rfl
  | p :: rest, q => by
    have ih := length_entered rest p
    rw [entered, forwards]
    split
    · rw [List.length_cons, ih]
    · rw [ih]

/-! ## The invariant -/

/-- What holds between the rounds of a run that started from `start` and entered `ent`. -/
structure Explored (f : Formula) (start : Values) (ent : List Values) (s : State) : Prop where
  trail_last : s.assignment.trail.getLast? = some start
  trail_nodup : s.assignment.trail.Nodup
  trail_entered : ∀ v ∈ s.assignment.trail, v ∈ ent
  entered_nodup : ent.Nodup
  reached : ∀ v ∈ ent, Relation.ReflTransGen (Neighbour f) start v
  length_entered : ent.length = s.moves + 1
  moves_eq : s.moves = s.backtracks + s.depth
  iterations_eq : s.iterations = s.moves + s.backtracks
  closed_entered : ∀ k ∈ s.closed, ∃ v ∈ ent, key v = k
  left_closed : ∀ v ∈ ent, v ≠ s.assignment.values → key v ∈ s.closed
  falsified : ∀ v, key v ∈ s.closed → ¬ f.Holds (valuation v)
  /-- Values that the search is done with have only closed neighbours. -/
  finished : ∀ v, key v ∈ s.closed → v ∉ s.assignment.trail → ∀ u, Neighbour f v u → key u ∈ s.closed
  /-- A search that gave up is back at its start, and done with it too. -/
  gaveUp : s.phase = .exhausted → s.assignment.history = [] ∧ key s.assignment.values ∈ s.closed ∧
    ∀ u, Neighbour f s.assignment.values u → key u ∈ s.closed

section
variable {f : Formula} {start : Values} {ent : List Values} {s s' : State}

theorem Explored.current_entered (h : Explored f start ent s) : s.assignment.values ∈ ent :=
  h.trail_entered _ (values_mem_trail s.assignment)

/-- Once the present values are closed, so is everything that was entered. -/
theorem Explored.entered_closed (h : Explored f start ent s) {v : Values} (hv : v ∈ ent) :
    key v ∈ (close s).closed := by
  rw [mem_close]
  by_cases he : v = s.assignment.values
  · exact Or.inl (by rw [he])
  · exact Or.inr (h.left_closed v hv he)

/-- What lies behind the present values on the trail is closed. -/
theorem Explored.behind_closed (h : Explored f start ent s) :
    ∀ v ∈ s.assignment.trail.tail, key v ∈ s.closed := by
  obtain ⟨behind, hb⟩ := trail_eq_cons s.assignment
  have hnd := h.trail_nodup
  rw [hb, List.nodup_cons] at hnd
  intro v hv
  rw [hb, List.tail_cons] at hv
  have hent := h.trail_entered v (by rw [hb]; exact List.mem_cons_of_mem _ hv)
  exact h.left_closed v hent fun he => hnd.1 (he ▸ hv)

/-- What closing the present values keeps of the closed set. -/
theorem Explored.close_entered (h : Explored f start ent s) {k : Fingerprint}
    (hk : k ∈ (close s).closed) : ∃ v ∈ ent, key v = k := by
  rcases mem_close.1 hk with rfl | hk
  · exact ⟨_, h.current_entered, rfl⟩
  · exact h.closed_entered k hk

theorem Explored.close_falsified (h : Explored f start ent s) (hf : ¬ s.Solves f) {v : Values}
    (hv : key v ∈ (close s).closed) : ¬ f.Holds (valuation v) := by
  rcases mem_close.1 hv with he | hv
  · rw [key_injective he]
    exact hf
  · exact h.falsified v hv

theorem Explored.close_finished (h : Explored f start ent s) {v u : Values}
    (hv : key v ∈ (close s).closed) (ht : v ∉ s.assignment.trail) (hn : Neighbour f v u) :
    key u ∈ (close s).closed := by
  rcases mem_close.1 hv with he | hv
  · exact absurd (key_injective he ▸ values_mem_trail s.assignment) ht
  · exact mem_close.2 (Or.inr (h.finished v hv ht u hn))

/-- A move forward to an open neighbour keeps the invariant, with one more value entered. -/
theorem Explored.forward (h : Explored f start ent s) (hp : s.phase ≠ .exhausted) (hf : ¬ s.Solves f)
    {m : Move} {b : Assignment} (happ : s.assignment.apply m = .ok b)
    (hnear : Neighbour f s.assignment.values b.values) (hopen : key b.values ∉ (close s).closed) :
    Explored f start (b.values :: ent)
      { close s with assignment := b, moves := s.moves + 1, iterations := s.iterations + 1 } := by
  have hb : b.trail = b.values :: s.assignment.trail := trail_apply happ
  -- whatever was entered is closed by now, so open values are new
  have hnew : b.values ∉ ent := fun hm => hopen (h.entered_closed hm)
  exact
  { trail_last := by
      rw [hb, List.getLast?_cons, h.trail_last]
      rfl
    trail_nodup := by
      rw [hb, List.nodup_cons]
      exact ⟨fun hm => hnew (h.trail_entered _ hm), h.trail_nodup⟩
    trail_entered := by
      rw [hb]
      intro v hv
      rcases List.mem_cons.1 hv with rfl | hv
      · exact List.mem_cons_self
      · exact List.mem_cons_of_mem _ (h.trail_entered v hv)
    entered_nodup := List.nodup_cons.2 ⟨hnew, h.entered_nodup⟩
    reached := by
      intro v hv
      rcases List.mem_cons.1 hv with rfl | hv
      · exact (h.reached _ h.current_entered).tail hnear
      · exact h.reached v hv
    length_entered := by rw [List.length_cons, h.length_entered]
    moves_eq := by
      have hm := h.moves_eq
      rw [State.depth] at hm
      show s.moves + 1 = s.backtracks + b.history.length
      rw [length_history_apply happ]
      omega
    iterations_eq := by
      have hi := h.iterations_eq
      show s.iterations + 1 = s.moves + 1 + s.backtracks
      omega
    closed_entered := by
      intro k hk
      obtain ⟨v, hv, he⟩ := h.close_entered hk
      exact ⟨v, List.mem_cons_of_mem _ hv, he⟩
    left_closed := by
      intro v hv hne
      rcases List.mem_cons.1 hv with rfl | hv
      · exact absurd rfl hne
      · exact h.entered_closed hv
    falsified := fun _ => h.close_falsified hf
    finished := by
      intro v hv ht u hn
      rw [hb] at ht
      exact h.close_finished hv (fun hm => ht (List.mem_cons_of_mem _ hm)) hn
    gaveUp := fun he => absurd he hp }

/-- Taking a move back from where every neighbour is closed keeps the invariant. -/
theorem Explored.back (h : Explored f start ent s) (hp : s.phase ≠ .exhausted) (hf : ¬ s.Solves f)
    {b : Assignment} (hstuck : Stuck f s) (hundo : s.assignment.undo? = some b) :
    Explored f start ent { close s with
      assignment := b, backtracks := s.backtracks + 1, iterations := s.iterations + 1 } := by
  have hb : s.assignment.trail = s.assignment.values :: b.trail := trail_undo? hundo
  have hnd := h.trail_nodup
  rw [hb, List.nodup_cons] at hnd
  exact
  { trail_last := by
      have hl := h.trail_last
      obtain ⟨rest, hr⟩ := trail_eq_cons b
      rw [hb, hr, List.getLast?_cons_cons] at hl
      rw [hr]
      exact hl
    trail_nodup := hnd.2
    trail_entered := fun v hv => h.trail_entered v (by rw [hb]; exact List.mem_cons_of_mem _ hv)
    entered_nodup := h.entered_nodup
    reached := h.reached
    length_entered := h.length_entered
    moves_eq := by
      have hm := h.moves_eq
      rw [State.depth, length_history_undo? hundo] at hm
      show s.moves = s.backtracks + 1 + b.history.length
      omega
    iterations_eq := by
      have hi := h.iterations_eq
      show s.iterations + 1 = s.moves + (s.backtracks + 1)
      omega
    closed_entered := fun _ => h.close_entered
    left_closed := fun _ hv _ => h.entered_closed hv
    falsified := fun _ => h.close_falsified hf
    finished := by
      -- the values that are left for good are stuck; the others off the trail were so before
      intro v hv ht u hn
      by_cases he : v = s.assignment.values
      · rw [he] at hn
        exact hstuck u hn
      · refine h.close_finished hv (fun hm => ?_) hn
        rw [hb] at hm
        rcases List.mem_cons.1 hm with he' | hm
        · exact he he'
        · exact ht hm
    gaveUp := fun he => absurd he hp }

/-- Giving up at the start keeps the invariant. -/
theorem Explored.exhaust (h : Explored f start ent s) (hf : ¬ s.Solves f) (hstuck : Stuck f s)
    (hstart : s.assignment.history = []) :
    Explored f start ent { close s with phase := .exhausted } :=
  { h with
    closed_entered := fun _ => h.close_entered
    left_closed := fun _ hv _ => h.entered_closed hv
    falsified := fun _ => h.close_falsified hf
    finished := fun _ hv ht _ => h.close_finished hv ht
    gaveUp := fun _ => ⟨hstart, mem_close.2 (Or.inl rfl), hstuck⟩ }

/-- Once the search has given up, everything that was entered is closed. -/
theorem Explored.entered_closed_of_exhausted (h : Explored f start ent s) (hx : s.phase = .exhausted)
    {v : Values} (hv : v ∈ ent) : key v ∈ s.closed := by
  by_cases he : v = s.assignment.values
  · rw [he]
    exact (h.gaveUp hx).2.1
  · exact h.left_closed v hv he

/-- Once the search has given up, the neighbours of closed values are closed. -/
theorem Explored.closed_next (h : Explored f start ent s) (hx : s.phase = .exhausted) {u v : Values}
    (hu : key u ∈ s.closed) (hn : Neighbour f u v) : key v ∈ s.closed := by
  obtain ⟨hstart, -, hnear⟩ := h.gaveUp hx
  -- the trail is down to the start, so everything closed is either done with or the start itself
  by_cases he : u = s.assignment.values
  · rw [he] at hn
    exact hnear v hn
  · refine h.finished u hu ?_ v hn
    rw [trail_of_history_nil hstart, List.mem_singleton]
    exact he

/-- The values entered, after a step from `s` to `s'`. -/
def enter (ent : List Values) (s s' : State) : List Values :=
  if s.depth < s'.depth then s'.assignment.values :: ent else ent

/-- **A step keeps the invariant.** -/
theorem Step.explored (hstep : Step f s s') (h : Explored f start ent s) (hp : s.phase ≠ .exhausted)
    (hf : ¬ s.Solves f) : Explored f start (enter ent s s') s' := by
  unfold enter
  cases hstep with
  | forward happ hnear hopen =>
    split
    · exact h.forward hp hf happ hnear hopen
    · rename_i hn
      exact absurd (State.depth_lt_of_apply happ) hn
  | back hstuck hundo =>
    split
    · rename_i hlt
      exact absurd hlt (Nat.lt_asymm (State.depth_lt_of_undo? hundo))
    · exact h.back hp hf hstuck hundo
  | exhaust hstuck hstart =>
    split
    · rename_i hlt
      exact absurd hlt (Nat.lt_irrefl _)
    · exact h.exhaust hf hstuck hstart

/-- What a step does to the trail. -/
theorem Step.trail_eq (hstep : Step f s s') : s'.assignment.trail =
    if s.depth < s'.depth then s'.assignment.values :: s.assignment.trail
    else if s'.depth < s.depth then s.assignment.trail.tail else s.assignment.trail := by
  cases hstep with
  | forward happ hnear hopen =>
    split
    · exact trail_apply happ
    · rename_i hn
      exact absurd (State.depth_lt_of_apply happ) hn
  | back hstuck hundo =>
    split
    · rename_i hlt
      exact absurd hlt (Nat.lt_asymm (State.depth_lt_of_undo? hundo))
    · split
      · rw [trail_undo? hundo]
        rfl
      · rename_i hn
        exact absurd (State.depth_lt_of_undo? hundo) hn
  | exhaust hstuck hstart =>
    split
    · rename_i hlt
      exact absurd hlt (Nat.lt_irrefl _)
    · split
      · rename_i hlt
        exact absurd hlt (Nat.lt_irrefl _)
      · rfl

/-- Scoring keeps the invariant of a search that goes on. -/
theorem Explored.rescored (h : Explored f start ent s) (hp : s.phase = .searching) :
    Explored f start ent (s.rescored f) :=
  { h with gaveUp := fun he => absurd he (State.rescored_ne_exhausted f hp) }

end

/-! ## Along trajectories -/

section
variable {t : Task} {g : Random.Generator} {r p q : Run} {rest rs : List Run}

theorem explored_start {s : State} (h : Task.Fresh t g s) :
    Explored t.formula s.assignment.values [s.assignment.values] s := by
  have hh : s.assignment.history = [] := by
    rw [h.assignment]
    exact Task.history_startValues t g
  have ht : s.assignment.trail = [s.assignment.values] := trail_of_history_nil hh
  have hc : ∀ k, k ∉ s.closed := by
    intro k
    rw [h.closed]
    exact Std.HashSet.not_mem_empty
  exact
  { trail_last := by
      rw [ht]
      rfl
    trail_nodup := by
      rw [ht]
      exact List.nodup_singleton _
    trail_entered := by
      rw [ht]
      exact fun v hv => hv
    entered_nodup := List.nodup_singleton _
    reached := by
      intro v hv
      rw [List.mem_singleton.1 hv]
    length_entered := by
      rw [h.moves]
      rfl
    moves_eq := by
      rw [h.moves, h.backtracks, State.depth, hh]
      rfl
    iterations_eq := by rw [h.iterations, h.moves, h.backtracks]
    closed_entered := fun k hk => absurd hk (hc k)
    left_closed := fun v hv hne => absurd (List.mem_singleton.1 hv) hne
    falsified := fun v hv => absurd hv (hc _)
    finished := fun v hv => absurd hv (hc _)
    gaveUp := fun he => absurd he h.phase }

/-- What the latest round of a greedy trajectory did. -/
theorem latest_step (hm : t.method = method) (h : t.Trajectory r (q :: p :: rest)) :
    ∃ s', t.Trajectory r (p :: rest) ∧ p.state.phase = .searching ∧ ¬ p.state.Solves t.formula ∧
      Step t.formula p.state s' ∧
      q.state = if s'.phase = .searching then s'.rescored t.formula else s' := by
  obtain ⟨s', hb, hs, hstep, -, hq⟩ := h.latest (regular hm)
  have hsc := hb.scored (regular hm) p List.mem_cons_self
  obtain ⟨s₁, h₁, hS⟩ := step_eq hsc.size
  rw [hm, show method.step = step from rfl, h₁] at hstep
  cases hstep
  exact ⟨s', hb, hs, hsc.not_solves hs, hS, hq⟩

/-- A score changes neither the assignment nor the closed values. -/
theorem latest_kept {s' : State} {f : Formula}
    (hq : q.state = if s'.phase = .searching then s'.rescored f else s') :
    q.state.assignment = s'.assignment ∧ q.state.closed = s'.closed := by
  rw [hq]
  split <;> exact ⟨rfl, rfl⟩

theorem explored (hm : t.method = method) {r₀ : Run} (hl : t.launch r = (r₀, .ok ())) :
    ∀ {rest : List Run} {q : Run}, t.Trajectory r (q :: rest) →
      Explored t.formula r₀.values (entered (q :: rest)) q.state
  | [], q, h => by
    cases h with
    | start h' =>
      rw [hl] at h'
      cases h'
      obtain ⟨g, hg⟩ := Task.generator_of_launch hl
      exact explored_start (Task.fresh_of_launch hg hl)
  | p :: rest, q, h => by
    obtain ⟨s', hb, hs, hf, hS, hq⟩ := latest_step hm h
    have hE := hS.explored (explored hm hl hb) (by rw [hs]; decide) hf
    obtain ⟨ha, -⟩ := latest_kept hq
    have hent : entered (q :: p :: rest) = enter (entered (p :: rest)) p.state s' := by
      rw [entered, enter, Run.values, ha, State.depth, State.depth, State.depth, ha]
    rw [hent, hq]
    split
    · rename_i hp
      exact hE.rescored hp
    · exact hE

/-- **Replaying the history** brings up the path, state by state. -/
theorem trail_eq_path (hm : t.method = method) : ∀ {rest : List Run} {q : Run},
    t.Trajectory r (q :: rest) → q.state.assignment.trail = path (q :: rest)
  | [], q, h => by
    cases h with
    | start hl =>
      obtain ⟨g, hg⟩ := Task.generator_of_launch hl
      refine trail_of_history_nil ?_
      rw [(Task.fresh_of_launch hg hl).assignment]
      exact Task.history_startValues t g
  | p :: rest, q, h => by
    obtain ⟨s', hb, -, -, hS, hq⟩ := latest_step hm h
    have ih := trail_eq_path hm hb
    obtain ⟨ha, -⟩ := latest_kept hq
    have hd : q.state.depth = s'.depth := by rw [State.depth, ha, State.depth]
    rw [path, ← ih, Run.values, ha, hd]
    exact hS.trail_eq

theorem mem_of_mem_entered {v : Values} : ∀ {rs : List Run}, v ∈ entered rs → ∃ p ∈ rs, p.values = v
  | [], h => by cases h
  | [p], h => ⟨p, List.mem_cons_self, (List.mem_singleton.1 h).symm⟩
  | q :: p :: rest, h => by
    unfold entered at h
    by_cases hf : p.state.depth < q.state.depth
    · rw [if_pos hf] at h
      rcases List.mem_cons.1 h with rfl | h
      · exact ⟨q, List.mem_cons_self, rfl⟩
      · obtain ⟨x, hx, he⟩ := mem_of_mem_entered h
        exact ⟨x, List.mem_cons_of_mem q hx, he⟩
    · rw [if_neg hf] at h
      obtain ⟨x, hx, he⟩ := mem_of_mem_entered h
      exact ⟨x, List.mem_cons_of_mem q hx, he⟩

theorem mem_entered_cons {v : Values} (h : v ∈ entered (p :: rest)) : v ∈ entered (q :: p :: rest) := by
  unfold entered
  split
  · exact List.mem_cons_of_mem _ h
  · exact h

/-- The run has entered all values that it has held. -/
theorem values_mem_entered (hm : t.method = method) : ∀ {rest : List Run} {q : Run},
    t.Trajectory r (q :: rest) → ∀ p ∈ q :: rest, p.values ∈ entered (q :: rest)
  | [], q, h, p, hp => by
    rw [List.mem_singleton.1 hp]
    exact List.mem_cons_self
  | p' :: rest, q, h, p, hp => by
    obtain ⟨s', hb, -⟩ := latest_step hm h
    rcases List.mem_cons.1 hp with rfl | hp
    · obtain ⟨r₀, hl⟩ := h.launched
      exact (explored hm hl h).current_entered
    · exact mem_entered_cons (values_mem_entered hm hb p hp)

/-- The closed values grow along a trajectory. -/
theorem closed_subset (hm : t.method = method) : ∀ {rest : List Run} {q : Run},
    t.Trajectory r (q :: rest) → ∀ p ∈ q :: rest, ∀ k ∈ p.state.closed, k ∈ q.state.closed
  | [], q, h, p, hp, k, hk => by
    rw [List.mem_singleton.1 hp] at hk
    exact hk
  | p' :: rest, q, h, p, hp, k, hk => by
    obtain ⟨s', hb, -, -, hS, hq⟩ := latest_step hm h
    rcases List.mem_cons.1 hp with rfl | hp
    · exact hk
    · have hk' := closed_subset hm hb p hp k hk
      obtain ⟨-, hc⟩ := latest_kept hq
      rw [hc]
      cases hS <;> exact mem_close.2 (Or.inr hk')

end

end Greedy

end LocalSat.Search
