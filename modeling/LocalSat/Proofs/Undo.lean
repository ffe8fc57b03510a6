import LocalSat.Failure
import LocalSat.Proofs.Trail
import Mathlib.Data.List.Induction

/-!
# The undo stack

What any sequence of moves and undos leaves of an assignment without a history. The undos cancel moves as
closing brackets cancel opening ones: `Balanced` calls cancel altogether, and the moves that stand are
those between which the calls are balanced (`Stands`). Every sequence leaves some moves standing
(`exists_stands`), and has the same effect as making these alone (`foldlM_of_stands`), because balanced
calls change nothing (`after_balanced`).

An undo can be done as a move back to the old value, whose record is dropped at once; `takeBack` is this
account of it, in which a failure would leave what was done before. On what calls leave, the two agree
(`takeBack_after`). Main statement: `undo_stack`.
-/

namespace LocalSat.Assignment

/-! ## Calls -/

/-- A call that changes an assignment. -/
inductive Call where
  | move (m : Move)
  | undo
deriving Repr

/-- Makes a call; one that fails changes nothing. -/
def perform (a : Assignment) : Call → Assignment × Except Failure Unit
  | .move m =>
    match a.apply m with
    | .error e => (a, .error (.outOfRange e))
    | .ok b => (b, .ok ())
  | .undo =>
    match a.undo? with
    | none => (a, .error .emptyHistory)
    | some b => (b, .ok ())

/-- What calls leave of an assignment, the ones that fail included. -/
def after (a : Assignment) (calls : List Call) : Assignment :=
  calls.foldl (fun a call => (a.perform call).1) a

/-- Takes back the latest move step by step: drops its record, moves the variable back to what it held,
and drops the record of that move. What was done before a failing step remains. -/
def takeBack (a : Assignment) : Assignment × Except Failure Unit :=
  match a.history with
  | [] => (a, .error .emptyHistory)
  | c :: rest =>
    match (⟨a.values, rest⟩ : Assignment).apply ⟨c.var, .int (integer c.previous)⟩ with
    | .error e => (⟨a.values, rest⟩, .error (.outOfRange e))
    | .ok b => (⟨b.values, b.history.tail⟩, .ok ())

section
variable {a b : Assignment} {m : Move}

theorem after_append (a : Assignment) (calls calls' : List Call) :
    a.after (calls ++ calls') = (a.after calls).after calls' :=
  List.foldl_append

theorem after_cons (a : Assignment) (call : Call) (calls : List Call) :
    a.after (call :: calls) = (a.perform call).1.after calls :=
  List.foldl_cons ..

theorem perform_move (h : a.apply m = .ok b) : a.perform (.move m) = (b, .ok ()) := by
  rw [perform, h]

theorem perform_move_of_outOfRange (h : ¬ m.InRange a.size) :
    a.perform (.move m) = (a, .error (.outOfRange (.assignment m.var a.size))) := by
  rw [perform, apply_of_outOfRange h]

theorem perform_undo (h : a.apply m = .ok b) : b.perform .undo = (a, .ok ()) := by
  rw [perform, undo?_apply h]

theorem perform_undo_of_history_nil (h : a.history = []) :
    a.perform .undo = (a, .error .emptyHistory) := by
  rw [perform, history_eq_nil_iff_undo?.1 h]

theorem size_perform (a : Assignment) (call : Call) : (a.perform call).1.size = a.size := by
  cases call with
  | move m =>
    cases h : a.apply m with
    | error e => simp only [perform, h]
    | ok b => simp only [perform, h, size_apply h]
  | undo =>
    cases h : a.undo? with
    | none => simp only [perform, h]
    | some b => simp only [perform, h, size_undo? h]

theorem size_after (a : Assignment) (calls : List Call) : (a.after calls).size = a.size := by
  induction calls generalizing a with
  | nil => rfl
  | cons call calls ih => rw [after_cons, ih, size_perform]

/-- The integer of a value gives a variable that value. -/
theorem truth_integer (x : Option Bool) : (Value.int (integer x)).truth = x := by
  rcases x with _ | _ | _ <;> rfl

/-- **Taking back the move just made**, step by step, restores values and history. -/
theorem takeBack_apply (h : a.apply m = .ok b) : b.takeBack = (a, .ok ()) := by
  obtain ⟨old, hold, rfl⟩ := apply_eq_ok_iff.1 h
  have hsize : (⟨a.write m.var m.value.truth, a.history⟩ : Assignment).size = a.size :=
    size_write a m.var m.value.truth
  obtain ⟨x, hx⟩ : ∃ x, (⟨a.write m.var m.value.truth, a.history⟩ : Assignment).look m.var = .ok x := by
    rw [exists_look_iff, hsize, ← exists_look_iff]
    exact ⟨old, hold⟩
  simp only [takeBack, apply, hx, truth_integer, write_write_old hold, List.tail_cons]

end

/-! ## Brackets -/

/-- Calls on `n` variables that cancel altogether: each move fails, or is matched by a later undo with
such calls between the two. -/
inductive Balanced (n : Nat) : List Call → Prop
  | nil : Balanced n []
  | failed {m : Move} {rest : List Call} (beyond : ¬ m.InRange n) (cancel : Balanced n rest) :
      Balanced n (.move m :: rest)
  | matched {m : Move} {inner rest : List Call} (within : m.InRange n) (between : Balanced n inner)
      (cancel : Balanced n rest) : Balanced n (.move m :: (inner ++ .undo :: rest))

/-- The moves that calls on `n` variables leave standing, the earliest first: those that no undo matches.
An undo while none stands matches nothing. -/
inductive Stands (n : Nat) : List Call → List Move → Prop
  | start {calls : List Call} (cancel : Balanced n calls) : Stands n calls []
  | idle {calls rest : List Call} (below : Stands n calls []) (cancel : Balanced n rest) :
      Stands n (calls ++ .undo :: rest) []
  | move {calls rest : List Call} {ms : List Move} {m : Move} (below : Stands n calls ms)
      (within : m.InRange n) (cancel : Balanced n rest) : Stands n (calls ++ .move m :: rest) (ms ++ [m])

section
variable {n : Nat} {calls rest : List Call} {ms : List Move} {m : Move}

theorem Balanced.append (h : Balanced n calls) (hr : Balanced n rest) : Balanced n (calls ++ rest) := by
  induction h with
  | nil => exact hr
  | failed beyond _ ih => exact .failed beyond ih
  | matched within between _ _ ih =>
    rw [List.cons_append, List.append_assoc, List.cons_append]
    exact .matched within between ih

theorem Stands.append (h : Stands n calls ms) (hr : Balanced n rest) : Stands n (calls ++ rest) ms := by
  cases h with
  | start cancel => exact .start (cancel.append hr)
  | idle below cancel =>
    rw [List.append_assoc, List.cons_append]
    exact .idle below (cancel.append hr)
  | move below within cancel =>
    rw [List.append_assoc, List.cons_append]
    exact .move below within (cancel.append hr)

/-- An undo cancels the latest move that stands. -/
theorem Stands.undo (h : Stands n calls (ms ++ [m])) : Stands n (calls ++ [.undo]) ms := by
  generalize hms : ms ++ [m] = ms' at h
  cases h with
  | start cancel => simp at hms
  | idle below cancel => simp at hms
  | move below within cancel =>
    obtain ⟨rfl, -⟩ := List.append_inj' hms rfl
    rw [List.append_assoc, List.cons_append]
    exact below.append (.matched within cancel .nil)

/-- **Every sequence** leaves some moves standing. -/
theorem exists_stands (n : Nat) (calls : List Call) : ∃ ms, Stands n calls ms := by
  induction calls using List.reverseRecOn with
  | nil => exact ⟨[], .start .nil⟩
  | append_singleton calls call ih =>
    obtain ⟨ms, h⟩ := ih
    cases call with
    | move m =>
      by_cases hm : m.InRange n
      · exact ⟨ms ++ [m], .move h hm .nil⟩
      · exact ⟨ms, h.append (.failed hm .nil)⟩
    | undo =>
      rcases List.eq_nil_or_concat' ms with rfl | ⟨ms, m, rfl⟩
      · exact ⟨[], .idle h .nil⟩
      · exact ⟨ms, h.undo⟩

/-- Further undos cancel as many of the latest moves. -/
theorem Stands.replicate (h : Stands n calls ms) {k : Nat} (hk : k ≤ ms.length) :
    Stands n (calls ++ List.replicate k .undo) (ms.take (ms.length - k)) := by
  induction k with
  | zero => simpa using h
  | succ k ih =>
    have hlt : ms.length - (k + 1) < ms.length := by omega
    have htake : ms.take (ms.length - k) = ms.take (ms.length - (k + 1)) ++ [ms[ms.length - (k + 1)]] := by
      rw [show ms.length - k = ms.length - (k + 1) + 1 by omega, List.take_add_one,
        List.getElem?_eq_getElem hlt]
      rfl
    have hrec := ih (by omega)
    rw [htake] at hrec
    rw [List.replicate_succ', ← List.append_assoc]
    exact hrec.undo

end

/-! ## What calls leave -/

section
variable {a b : Assignment} {calls : List Call} {ms : List Move} {m : Move}

theorem foldlM_apply_concat : (ms ++ [m]).foldlM apply a = .ok b ↔
    ∃ c, ms.foldlM apply a = .ok c ∧ c.apply m = .ok b := by
  rw [List.foldlM_append]
  cases ms.foldlM apply a with
  | error e => simp [bind, Except.bind]
  | ok c =>
    cases h : c.apply m <;> simp [bind, Except.bind, pure, Except.pure, h]

/-- **Balanced calls** change nothing. -/
theorem after_balanced (h : Balanced a.size calls) : a.after calls = a := by
  generalize hn : a.size = n at h
  induction h generalizing a with
  | nil => rfl
  | failed beyond _ ih =>
    rw [after_cons, perform_move_of_outOfRange (hn ▸ beyond)]
    exact ih hn
  | matched within _ _ ihBetween ih =>
    obtain ⟨b, hb⟩ := exists_apply_iff.2 (hn ▸ within)
    rw [after_cons, perform_move hb, after_append, ihBetween ((size_apply hb).trans hn), after_cons,
      perform_undo hb]
    exact ih hn

/-- **Calls have the effect of the moves that they leave standing.** -/
theorem foldlM_of_stands (ha : a.history = []) (h : Stands a.size calls ms) :
    ms.foldlM apply a = .ok (a.after calls) := by
  generalize hn : a.size = n at h
  induction h with
  | start cancel =>
    rw [after_balanced (hn ▸ cancel)]
    rfl
  | idle below cancel ih =>
    -- no move stands, so that the undo meets the assignment as it was, without a history
    have hbelow : a = a.after _ := Except.ok.inj ih
    rw [after_append, ← hbelow, after_cons, perform_undo_of_history_nil ha,
      after_balanced (hn ▸ cancel)]
    rfl
  | @move calls rest ms m below within cancel ih =>
    have hsize : (a.after calls).size = n := (size_after a calls).trans hn
    obtain ⟨b, hb⟩ := exists_apply_iff.2 (hsize ▸ within)
    have hrest : b.after rest = b := after_balanced (by rwa [size_apply hb, hsize])
    rw [after_append, after_cons, perform_move hb, hrest]
    exact foldlM_apply_concat.2 ⟨_, ih, hb⟩

/-- Of moves that can be taken back, or were made where there was no history, an undo done step by step
is the undo. -/
theorem takeBack_of_foldlM (h : ms.foldlM apply a = .ok b) (ha : ms = [] → a.history = []) :
    b.takeBack = b.perform .undo := by
  rcases List.eq_nil_or_concat' ms with rfl | ⟨ms, m, rfl⟩
  · have hnil : b.history = [] := Except.ok.inj h ▸ ha rfl
    rw [perform_undo_of_history_nil hnil, takeBack, hnil]
  · obtain ⟨c, -, hc⟩ := foldlM_apply_concat.1 h
    rw [takeBack_apply hc, perform_undo hc]

/-- On what calls leave, an undo done step by step is the undo. -/
theorem takeBack_after (ha : a.history = []) (calls : List Call) :
    (a.after calls).takeBack = (a.after calls).perform .undo := by
  obtain ⟨ms, h⟩ := exists_stands a.size calls
  exact takeBack_of_foldlM (foldlM_of_stands ha h) fun _ => ha

/-- What is promised of any calls that follow the building of an assignment, and of the next one. -/
structure StackLaw (a : Assignment) (calls : List Call) : Prop where
  /-- The values and the history are those of the moves that stand. -/
  stands : ∃ ms, Stands a.size calls ms
  effect : ∀ ms, Stands a.size calls ms → ms.foldlM apply a = .ok (a.after calls)
  /-- Undoing the last moves that stand leaves those before them. -/
  undone : ∀ ms, Stands a.size calls ms → ∀ k ≤ ms.length,
    (ms.take (ms.length - k)).foldlM apply a = .ok (a.after (calls ++ List.replicate k .undo))
  /-- A move fails exactly if its variable is out of range, and then it changes nothing. -/
  moved : ∀ m : Move, m.InRange a.size →
    ∃ b, (a.after calls).apply m = .ok b ∧ (a.after calls).perform (.move m) = (b, .ok ())
  beyond : ∀ m : Move, ¬ m.InRange a.size →
    ∃ e : Failure, e.kind = "IndexError" ∧ (a.after calls).perform (.move m) = (a.after calls, .error e)
  /-- An undo fails exactly if no move stands, and then it changes nothing. -/
  takes : (a.after calls).history ≠ [] →
    ∃ b, (a.after calls).undo? = some b ∧ (a.after calls).perform .undo = (b, .ok ())
  empty : (a.after calls).history = [] →
    ∃ e : Failure, e.kind = "EmptyHistoryError" ∧ (a.after calls).perform .undo = (a.after calls, .error e)
  /-- Done as a move back whose record is dropped, an undo has this very effect. -/
  stepwise : (a.after calls).takeBack = (a.after calls).perform .undo
  size : (a.after calls).size = a.size
  values : ∀ x ∈ (a.after calls).values, integer x = -1 ∨ integer x = 0 ∨ integer x = 1

/-- **The undo stack law.** Whatever values an assignment is built with and whatever calls follow, it is as
if only the moves that no later undo cancels had been made; a failing call changes nothing. -/
theorem undo_stack (vs : Values) (calls : List Call) : StackLaw ⟨vs, []⟩ calls where
  stands := exists_stands _ calls
  effect _ h := foldlM_of_stands rfl h
  undone _ h _ hk := foldlM_of_stands rfl (h.replicate hk)
  moved m hm := by
    obtain ⟨b, hb⟩ := exists_apply_iff.2 (size_after ⟨vs, []⟩ calls ▸ hm)
    exact ⟨b, hb, perform_move hb⟩
  beyond m hm := ⟨_, rfl, perform_move_of_outOfRange (size_after ⟨vs, []⟩ calls ▸ hm)⟩
  takes h := by
    obtain ⟨b, hb⟩ := Option.ne_none_iff_exists'.1 (fun e => h (history_eq_nil_iff_undo?.2 e))
    exact ⟨b, hb, by rw [perform, hb]⟩
  empty h := ⟨_, rfl, perform_undo_of_history_nil h⟩
  stepwise := takeBack_after rfl calls
  size := size_after _ calls
  values x _ := by rcases x with _ | _ | _ <;> decide

example : (⟨#[none, some true], []⟩ : Assignment).after [.move ⟨-1, .int 0⟩, .move ⟨5, .int 1⟩,
    .move ⟨-1, .null⟩, .undo] = ⟨#[none, some false], [⟨-1, some true⟩]⟩ := by rfl

end

end LocalSat.Assignment
