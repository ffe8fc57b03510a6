import LocalSat.Proofs.Undo
import Mathlib.Data.List.Infix

/-!
# Tentative blocks

What a tentative block leaves of an assignment, whatever its body does. A `Body` makes calls, opens
blocks, looks at the assignment, raises exceptions and catches those of its calls and blocks; its blocks
may overlap its own moves in any way. All that it does to the assignment is to make calls one after the
other, entering and leaving a block being a move and an undo (`run_eq_after`).

Calls that never take the history below where it was only stack moves on what was there
(`exists_foldlM_of_above`), so that if in the end the history is as long as it was, everything is as
it was (`Bracketed.after_eq`), and the undo on leaving meets the move of entering. Main statement:
`tentative_leaves_no_trace`.
-/

namespace LocalSat.Assignment

/-! ## Bodies -/

/-- An exception: the failure of a call, or one that a body brings up by itself. -/
inductive Raised (ε : Type) where
  | call (e : Failure)
  | own (e : ε)

/-- The exception that comes out of a block. -/
def BlockError.raised {ε : Type} : BlockError (Raised ε) → Raised ε
  | .entering e => .call (.outOfRange e)
  | .inside e => e
  | .leaving => .call .emptyHistory

/-- What is done to an assignment, inside a tentative block or elsewhere. What follows a call or a block
is told how this ended, and so may catch its exception. -/
inductive Body (ε α : Type) where
  | done (x : α)
  | raise (e : Raised ε)
  /-- Goes on as the assignment has it. -/
  | look (next : Assignment → Body ε α)
  | call (c : Call) (next : Except Failure Unit → Body ε α)
  | block (m : Move) (inner : Body ε α) (next : Except (Raised ε) α → Body ε α)

namespace Body

variable {ε α : Type}

/-- What a body leaves of an assignment, and how it ends. -/
def run : Body ε α → Assignment → Assignment × Except (Raised ε) α
  | .done x, a => (a, .ok x)
  | .raise e, a => (a, .error e)
  | .look next, a => (next a).run a
  | .call c next, a =>
    let (b, r) := a.perform c
    (next r).run b
  | .block m inner next, a =>
    let (b, r) := a.tentatively m inner.run
    (next (r.mapError BlockError.raised)).run b

/-- The calls that a body makes, those of entering and of leaving its blocks included. -/
def calls : Body ε α → Assignment → List Call
  | .done _, _ => []
  | .raise _, _ => []
  | .look next, a => (next a).calls a
  | .call c next, a =>
    let (b, r) := a.perform c
    c :: (next r).calls b
  | .block m inner next, a =>
    let (d, r) := a.tentatively m inner.run
    let rest := (next (r.mapError BlockError.raised)).calls d
    match a.apply m with
    | .error _ => .move m :: rest
    | .ok b => .move m :: (inner.calls b ++ .undo :: rest)

end Body

section
variable {ε α : Type} {a b : Assignment} {m : Move}

/-- A block that has been entered is left by an undo. -/
theorem tentatively_fst (h : a.apply m = .ok b) (block : Assignment → Assignment × Except ε α) :
    (a.tentatively m block).1 = ((block b).1.perform .undo).1 := by
  simp only [tentatively, h, perform]
  cases (block b).1.undo? <;> rfl

/-- **A body does to an assignment what the calls do that it makes**, wherever it raises. -/
theorem run_eq_after (body : Body ε α) (a : Assignment) : (body.run a).1 = a.after (body.calls a) := by
  induction body generalizing a with
  | done x => rfl
  | raise e => rfl
  | look next ih => exact ih a a
  | call c next ih =>
    rw [Body.calls, after_cons]
    exact ih _ _
  | block m inner next ihInner ihNext =>
    rw [Body.run, ihNext, Body.calls]
    cases h : a.apply m with
    | error e =>
      have hfst : (a.tentatively m inner.run).1 = a := by rw [tentatively, h]
      have hperform : (a.perform (.move m)).1 = a := by rw [perform, h]
      simp only [after_cons, hperform, hfst]
    | ok b =>
      have hfst : (a.tentatively m inner.run).1 = ((b.after (inner.calls b)).perform .undo).1 := by
        rw [tentatively_fst h, ihInner]
      simp only [after_cons, after_append, perform_move h, hfst]

end

/-! ## Brackets -/

/-- Calls that never take the history below its length at their start, and end at that length. -/
structure Bracketed (b : Assignment) (calls : List Call) : Prop where
  above : ∀ p, p <+: calls → b.history.length ≤ (b.after p).history.length
  level : (b.after calls).history.length = b.history.length

instance (b : Assignment) (calls : List Call) : Decidable (Bracketed b calls) :=
  decidable_of_iff ((∀ p ∈ calls.inits, b.history.length ≤ (b.after p).history.length) ∧
      (b.after calls).history.length = b.history.length)
    ⟨fun h => ⟨fun p hp => h.1 p ((List.mem_inits p calls).2 hp), h.2⟩,
      fun h => ⟨fun p hp => h.above p ((List.mem_inits p calls).1 hp), h.level⟩⟩

section
variable {a b c : Assignment} {calls : List Call} {ms : List Move} {m : Move}

theorem length_history_foldlM (h : ms.foldlM apply b = .ok c) :
    c.history.length = b.history.length + ms.length := by
  induction ms using List.reverseRecOn generalizing c with
  | nil =>
    cases h
    rfl
  | append_singleton ms m ih =>
    obtain ⟨d, hd, hc⟩ := foldlM_apply_concat.1 h
    rw [length_history_apply hc, ih hd, List.length_append, List.length_singleton]
    rfl

theorem after_concat (b : Assignment) (calls : List Call) (call : Call) :
    b.after (calls ++ [call]) = ((b.after calls).perform call).1 := by
  rw [after_append, after_cons, after, List.foldl_nil]

/-- Where calls changed nothing and a further undo does not go below, there is nothing to undo. -/
theorem history_eq_nil_of_above (hb : b = b.after calls)
    (h : b.history.length ≤ (b.after (calls ++ [.undo])).history.length) : b.history = [] := by
  rw [after_concat, ← hb] at h
  cases hd : b.undo? with
  | none => exact history_eq_nil_iff_undo?.2 hd
  | some d =>
    have hlength := length_history_undo? hd
    simp only [perform, hd] at h
    omega

/-- **Calls that never go below where they start** do as much as some moves alone. -/
theorem exists_foldlM_of_above (h : ∀ p, p <+: calls → b.history.length ≤ (b.after p).history.length) :
    ∃ ms : List Move, ms.foldlM apply b = .ok (b.after calls) := by
  induction calls using List.reverseRecOn with
  | nil => exact ⟨[], rfl⟩
  | append_singleton calls call ih =>
    obtain ⟨ms, hms⟩ := ih fun p hp => h p (hp.trans (List.prefix_append calls [call]))
    have hlast := after_concat b calls call
    cases call with
    | move m =>
      cases hm : (b.after calls).apply m with
      | error e =>
        refine ⟨ms, ?_⟩
        rw [hlast, perform, hm, hms]
      | ok d =>
        refine ⟨ms ++ [m], ?_⟩
        rw [hlast, perform_move hm]
        exact foldlM_apply_concat.2 ⟨_, hms, hm⟩
    | undo =>
      rcases List.eq_nil_or_concat' ms with rfl | ⟨ms, m, rfl⟩
      · -- no move is stacked, and an undo of what was there before would go below
        have hstart : b = b.after calls := Except.ok.inj hms
        have hnil := history_eq_nil_of_above hstart (h _ (List.prefix_refl _))
        refine ⟨[], ?_⟩
        rw [hlast, ← hstart, perform_undo_of_history_nil hnil]
        rfl
      · obtain ⟨d, hd, hm⟩ := foldlM_apply_concat.1 hms
        refine ⟨ms, ?_⟩
        rw [hlast, perform_undo hm, hd]

/-- **Bracketed calls** leave values and history as they were. -/
theorem Bracketed.after_eq (h : Bracketed b calls) : b.after calls = b := by
  obtain ⟨ms, hms⟩ := exists_foldlM_of_above h.above
  have hlength := length_history_foldlM hms
  rw [h.level] at hlength
  have hnil : ms = [] := List.length_eq_zero_iff.1 (by omega)
  subst hnil
  exact (Except.ok.inj hms).symm

/-- Among bracketed calls, too, an undo done step by step is the undo. -/
theorem Bracketed.takeBack_eq (h : Bracketed b calls) {p : List Call} (hp : p ++ [.undo] <+: calls) :
    (b.after p).takeBack = (b.after p).perform .undo := by
  have hprefix := (List.prefix_append p [.undo]).trans hp
  obtain ⟨ms, hms⟩ := exists_foldlM_of_above fun q hq => h.above q (hq.trans hprefix)
  refine takeBack_of_foldlM hms fun hnil => ?_
  subst hnil
  exact history_eq_nil_of_above (Except.ok.inj hms) (h.above _ hp)

end

/-! ## Leaving no trace -/

section
variable {ε α : Type}

/-- A tentative move whose making turns `a` into `b`, around a body: it is taken back, and nothing else. -/
structure Traceless (a b : Assignment) (m : Move) (body : Body ε α) : Prop where
  /-- The block restores values and history, and ends as its body does. -/
  restored : a.tentatively m body.run = (a, (body.run b).2.mapError .inside)
  /-- What follows the block finds `a`, and is told of the body's own result or exception. -/
  resumed : ∀ next, (Body.block m body next).run a = (next (body.run b).2).run a
  /-- The undos, done as moves back, have this very effect: the one on leaving, and those of the body. -/
  leaving : (body.run b).1.takeBack = (a, .ok ())
  stepwise : ∀ p, p ++ [.undo] <+: body.calls b → (b.after p).takeBack = (b.after p).perform .undo

/-- A tentative move that cannot be made: it fails, nothing is changed, and no call of the body is made. -/
structure Refused (a : Assignment) (m : Move) (body : Body ε α) (e : OutOfRange) : Prop where
  unchanged : a.tentatively m body.run = (a, .error (.entering e))
  resumed : ∀ next, (Body.block m body next).run a = (next (.error (.call (.outOfRange e)))).run a
  unmade : ∀ next,
    (Body.block m body next).calls a = .move m :: (next (.error (.call (.outOfRange e)))).calls a

theorem traceless_of_bracketed {a b : Assignment} {m : Move} {body : Body ε α} (hb : a.apply m = .ok b)
    (h : Bracketed b (body.calls b)) : Traceless a b m body := by
  have hend : (body.run b).1 = b := (run_eq_after body b).trans h.after_eq
  have hrun : a.tentatively m body.run = (a, (body.run b).2.mapError .inside) := by
    simp only [tentatively, hb, hend, undo?_apply hb]
  exact
  { restored := hrun
    resumed := by
      intro next
      simp only [Body.run, hrun]
      cases (body.run b).2 <;> rfl
    leaving := by rw [hend, takeBack_apply hb]
    stepwise := fun p hp => h.takeBack_eq hp }

theorem refused_of_outOfRange {a : Assignment} {m : Move} (body : Body ε α) (hm : ¬ m.InRange a.size) :
    Refused a m body (.assignment m.var a.size) := by
  have hrun := tentatively_of_outOfRange hm body.run
  refine ⟨hrun, fun next => ?_, fun next => ?_⟩
  · simp only [Body.run, hrun]
    rfl
  · simp only [Body.calls, hrun, apply_of_outOfRange hm]
    rfl

/-- **Tentative moves leave no trace.** A move in range is made, and after any body that brings the history
back to its length, never having gone below, everything is as before; a move out of range is refused. -/
theorem tentative_leaves_no_trace (a : Assignment) (m : Move) (body : Body ε α) :
    (m.InRange a.size → ∃ b, a.apply m = .ok b ∧ (Bracketed b (body.calls b) → Traceless a b m body)) ∧
    (¬ m.InRange a.size →
      ∃ e, (Failure.outOfRange e).kind = "IndexError" ∧ Refused a m body e) := by
  refine ⟨fun hm => ?_, fun hm => ⟨_, rfl, refused_of_outOfRange body hm⟩⟩
  obtain ⟨b, hb⟩ := exists_apply_iff.2 hm
  exact ⟨b, hb, traceless_of_bracketed hb⟩

/-- Makes a move and opens a block, which undoes what entered it and the move before, moves and fails; lets
the exception pass. -/
def overlapping : Body String Unit :=
  .call (.move ⟨0, .int 1⟩) fun _ =>
    .block ⟨1, .null⟩
      (.call .undo fun _ => .call .undo fun _ => .call (.move ⟨0, .int 0⟩) fun _ => .raise (.own "stop"))
      fun
        | .ok x => .done x
        | .error e => .raise e

/-- An assignment with a history, which the block leaves as it is. -/
def marked : Assignment := ⟨#[none, some true], [⟨0, some false⟩]⟩

theorem tentative_leaves_no_trace_overlapping :
    ∃ b, marked.apply ⟨-1, .int 0⟩ = .ok b ∧ Bracketed b (overlapping.calls b) ∧
      marked.tentatively ⟨-1, .int 0⟩ overlapping.run = (marked, .error (.inside (.own "stop"))) := by
  obtain ⟨b, hb, h⟩ := (tentative_leaves_no_trace marked ⟨-1, .int 0⟩ overlapping).1 (by decide)
  have hbracketed : Bracketed b (overlapping.calls b) := by
    obtain rfl : _ = b := Except.ok.inj hb
    decide
  refine ⟨b, hb, hbracketed, ?_⟩
  rw [(h hbracketed).restored]
  obtain rfl : _ = b := Except.ok.inj hb
  rfl

end

end LocalSat.Assignment
