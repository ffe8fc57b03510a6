import LocalSat.Formula.Evaluate

/-!
# Assignments with an undo stack

An assignment gives each variable a truth value or leaves it unassigned, and remembers what its moves
replaced, so that a search can go back along its path. The length never changes. Main statements: an
undo takes back exactly the last move (`undo?_apply`), and a failed move changes nothing, because it
yields no assignment.

| here | there |
| --- | --- |
| `apply`, `undo?`, `forget` | `apply_move`, `undo_last_move`, `clear_history` |
| `fingerprint`, `fingerprintAfter` | `fingerprint`, `fingerprint_after` |
| `flips`, `tentatively` | `flip_moves`, `tentative` |
| `isTotal`, `toSigned` | `is_total`, `to_dimacs` |
-/

namespace LocalSat

/-- A proposed new value for a variable. -/
structure Move where
  var : Int
  value : Value
deriving Repr, BEq

/-- What a variable held before a move changed it. -/
structure Change where
  var : Int
  previous : Option Bool
deriving DecidableEq, Repr

/-- One octet per variable: 1 for true, 0 for false, 255 for unassigned. -/
abbrev Fingerprint := List UInt8

/-- Values of the variables, and the changes made by moves, the latest first. -/
structure Assignment where
  values : Array (Option Bool)
  history : List Change
deriving DecidableEq, Repr

namespace Assignment

/-! ## Building -/

/-- The assignment that holds the given values. -/
def ofValues (vs : List Value) : Assignment := ⟨(vs.map Value.truth).toArray, []⟩

/-- The total assignment of the given truth values. -/
def ofBools (bs : List Bool) : Assignment := ⟨(bs.map some).toArray, []⟩

/-- The assignment that leaves every variable open; a negative size counts as zero. -/
def unassigned (n : Int) : Assignment := ⟨Array.replicate n.toNat none, []⟩

/-! ## Looking -/

/-- Number of variables. -/
def size (a : Assignment) : Nat := a.values.size

/-- The value of the variable with an index. -/
def look (a : Assignment) : Reading := fun i =>
  match (position? a.size i).bind (a.values[·]?) with
  | some b => .ok b
  | none => .error (.assignment i a.size)

/-- Whether every variable has a truth value. -/
def isTotal (a : Assignment) : Bool := a.values.all Option.isSome

/-- The letter of a value. -/
def letter : Option Bool → Char
  | some true => 'T'
  | some false => 'F'
  | none => 'U'

/-- One letter per variable. -/
def text (a : Assignment) : String := String.ofList (a.values.toList.map letter)

/-- The octet of a value. -/
def octet : Option Bool → UInt8
  | some true => 1
  | some false => 0
  | none => 255

/-- The integer of a value: 1, 0, or -1 for an unassigned variable. -/
def integer : Option Bool → Int
  | some true => 1
  | some false => 0
  | none => -1

/-- The key under which a search remembers the values. -/
def fingerprint (a : Assignment) : Fingerprint := a.values.toList.map octet

/-- The assigned variables as signed integers, counted from one. -/
def toSigned (a : Assignment) : List Int :=
  (a.values.toList.zipIdx 1).filterMap fun (b, i) =>
    b.map fun b => if b then (i : Int) else -(i : Int)

/-! ## Moving -/

/-- Replaces the value of a variable; an index out of range changes nothing. -/
def write (a : Assignment) (i : Int) (b : Option Bool) : Array (Option Bool) :=
  match position? a.size i with
  | some p => a.values.setIfInBounds p b
  | none => a.values

/-- Makes a move and records what it replaced. -/
def apply (a : Assignment) (m : Move) : Except OutOfRange Assignment :=
  match a.look m.var with
  | .error e => .error e
  | .ok old => .ok ⟨a.write m.var m.value.truth, ⟨m.var, old⟩ :: a.history⟩

/-- Takes back the latest move, if there is one. -/
def undo? (a : Assignment) : Option Assignment :=
  match a.history with
  | [] => none
  | c :: rest => some ⟨a.write c.var c.previous, rest⟩

/-- Forgets the moves made so far and keeps the values. -/
def forget (a : Assignment) : Assignment := { a with history := [] }

/-- The fingerprint that a move leads to, the move not being made. -/
def fingerprintAfter (a : Assignment) (m : Move) : Except OutOfRange Fingerprint :=
  match a.look m.var with
  | .error e => .error e
  | .ok _ => .ok ((a.write m.var m.value.truth).toList.map octet)

/-- The moves that change a variable: to the opposite value, or, for an unassigned variable, to true
and to false. -/
def flips (a : Assignment) (i : Int) : Except OutOfRange (List Move) :=
  match a.look i with
  | .error e => .error e
  | .ok none => .ok [⟨i, .int 1⟩, ⟨i, .int 0⟩]
  | .ok (some b) => .ok [⟨i, .int (if b then 0 else 1)⟩]

/-! ## Tentative moves -/

/-- Why a tentative block did not end well. -/
inductive BlockError (ε : Type) where
  /-- The move could not be made; the block was not entered. -/
  | entering (e : OutOfRange)
  /-- The block failed by itself. -/
  | inside (e : ε)
  /-- On leaving, there was no move left to take back. -/
  | leaving
deriving Repr

/-- Runs a block with a move made, and takes the latest move back afterwards, whether the block fails
or not. -/
def tentatively {ε α : Type} (m : Move) (block : Assignment → Assignment × Except ε α)
    (a : Assignment) : Assignment × Except (BlockError ε) α :=
  match a.apply m with
  | .error e => (a, .error (.entering e))
  | .ok b =>
    let (c, r) := block b
    match c.undo? with
    | none => (c, .error .leaving)
    | some d => (d, r.mapError .inside)

/-! ## Laws -/

theorem size_write (a : Assignment) (i : Int) (b : Option Bool) : (a.write i b).size = a.size := by
  unfold write
  split <;> simp [size]

theorem size_apply {a b : Assignment} {m : Move} (h : a.apply m = .ok b) : b.size = a.size := by
  unfold apply at h
  split at h
  · simp at h
  · simp only [Except.ok.injEq] at h
    subst h
    exact size_write a _ _

/-- The value of a variable in range is the entry at its position. -/
theorem look_eq_ok_iff {a : Assignment} {i : Int} {b : Option Bool} :
    a.look i = .ok b ↔ ∃ p, position? a.size i = some p ∧ a.values[p]? = some b := by
  unfold look
  cases h : position? a.size i with
  | none => simp
  | some p =>
    have hp : p < a.values.size := position?_lt h
    simp [hp]

/-- Writing back the old value cancels a write. -/
theorem write_write_old {a : Assignment} {i : Int} {b old : Option Bool} {h : List Change}
    (hold : a.look i = .ok old) : (⟨a.write i b, h⟩ : Assignment).write i old = a.values := by
  obtain ⟨p, hp, ho⟩ := look_eq_ok_iff.1 hold
  have hs : (⟨a.write i b, h⟩ : Assignment).size = a.size := size_write a i b
  unfold write at hs ⊢
  simp only [hp] at hs ⊢
  simp only [hs, hp]
  apply Array.ext_getElem?
  intro j
  by_cases hj : p = j
  · subst hj
    have hlt : p < a.values.size := position?_lt hp
    simp [hlt, ← ho]
  · simp [Array.getElem?_setIfInBounds_ne hj]

/-- **Undoing the move just made** restores values and history. -/
theorem undo?_apply {a b : Assignment} {m : Move} (h : a.apply m = .ok b) : b.undo? = some a := by
  unfold apply at h
  split at h
  · simp at h
  · rename_i old hold
    simp only [Except.ok.injEq] at h
    subst h
    simp only [undo?, write_write_old hold]

end Assignment

end LocalSat
