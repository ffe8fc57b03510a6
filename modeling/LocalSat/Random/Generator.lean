import LocalSat.Random.Seed
import LocalSat.Value.Display

/-!
# A permuted congruential generator

The generator is a linear congruence on 128 bits whose output is its two halves combined and rotated. It
yields 64 bits at a time and lends them out in halves. `below` draws uniformly from `0 … n - 1` by
multiplying and rejecting; main statement: its answer is below `n` (`below_lt`).

| here | there |
| --- | --- |
| `Generator.ofValue` | `default_rng` |
| `below`, `coins` | `integers`, `choice` of two signs |
-/

namespace LocalSat.Random

/-- Why a random draw is not possible. -/
inductive Error where
  | negativeSeed
  /-- The seed is no integer; it is kept as a message shows it. -/
  | seedKind (shown : String)
  /-- A draw from no numbers at all. -/
  | emptyRange
  /-- A sample from no entries at all. -/
  | emptyPool
  /-- A negative number of draws. -/
  | negativeSize
deriving DecidableEq, Repr

/-- The generator's state, its fixed increment, and a half of the last output if it is still unused. -/
@[ext]
structure Generator where
  state : BitVec 128
  increment : BitVec 128
  spare : Option UInt32
deriving DecidableEq, Repr

namespace Generator

/-- The congruence's multiplier. -/
def multiplier : BitVec 128 := 0x2360ed051fc65da44385df649fccf645

/-- The next state. -/
def advance (state increment : BitVec 128) : BitVec 128 := state * multiplier + increment

/-- The generator set up from the words of a seed. -/
def ofWords (words : List UInt32) : Generator :=
  let w := setup words
  let wide (i : Nat) : BitVec 128 := (w.getD i 0).toBitVec.setWidth 128
  let increment := (((wide 2 <<< 64) ||| wide 3) <<< 1) ||| 1
  let state := advance 0 increment + ((wide 0 <<< 64) ||| wide 1)
  ⟨advance state increment, increment, none⟩

/-- The generator of a seed. -/
def ofSeed (seed : Nat) : Generator := ofWords (seedWords seed)

/-- The next 64 bits. -/
def next64 (g : Generator) : UInt64 × Generator :=
  let s := advance g.state g.increment
  let folded : BitVec 64 := (s >>> 64).setWidth 64 ^^^ s.setWidth 64
  (⟨folded.rotateRight (s >>> 122).toNat⟩, { g with state := s })

/-- The next 32 bits: the unused half if there is one, else the low half of 64 fresh bits. -/
def next32 (g : Generator) : UInt32 × Generator :=
  match g.spare with
  | some half => (half, { g with spare := none })
  | none =>
    let (bits, g) := g.next64
    (bits.toUInt32, { g with spare := some (bits >>> 32).toUInt32 })

/-- Draws until the product's low half is not among the first `2^32 mod n`, at most `tries` times. -/
def drawBelow (n : Nat) : Nat → Generator → Nat × Generator
  | 0, g => let (bits, g) := g.next32; (bits.toNat * n / wordSize, g)
  | tries + 1, g =>
    let (bits, g) := g.next32
    let m := bits.toNat * n
    if m % wordSize < wordSize % n then drawBelow n tries g else (m / wordSize, g)

/-- More draws than there are states, after which a generator has come round and would reject for ever. -/
def roundTrip : Nat := Nat.pow 2 130

/-- A uniform draw from `0 … n - 1`, for `n` up to `2^32`; from one number nothing is drawn. -/
def below (n : Nat) (g : Generator) : Nat × Generator :=
  if n ≤ 1 then (0, g) else drawBelow n roundTrip g

/-- A uniform truth value. -/
def coin (g : Generator) : Bool × Generator :=
  let (i, g) := g.below 2
  (i == 1, g)

/-- That many uniform truth values. -/
def coins : Nat → Generator → List Bool × Generator
  | 0, g => ([], g)
  | n + 1, g =>
    let (b, g) := g.coin
    let (bs, g) := coins n g
    (b :: bs, g)

theorem drawBelow_lt {n : Nat} (h : 0 < n) : ∀ (tries : Nat) (g : Generator), (drawBelow n tries g).1 < n
  | 0, g => by
    have hb := (g.next32.1).toNat_lt
    simp only [drawBelow]
    refine Nat.div_lt_of_lt_mul ?_
    exact Nat.mul_lt_mul_of_pos_right (by simpa [wordSize] using hb) h
  | tries + 1, g => by
    have hb := (g.next32.1).toNat_lt
    simp only [drawBelow]
    split
    · exact drawBelow_lt h tries _
    · refine Nat.div_lt_of_lt_mul ?_
      exact Nat.mul_lt_mul_of_pos_right (by simpa [wordSize] using hb) h

/-- **A draw lies in its range.** -/
theorem below_lt {n : Nat} (h : 0 < n) (g : Generator) : (g.below n).1 < n := by
  unfold below
  split
  · exact h
  · exact drawBelow_lt h _ g

theorem increment_next64 (g : Generator) : g.next64.2.increment = g.increment := by
  obtain ⟨s, i, half⟩ := g
  rfl

theorem increment_next32 (g : Generator) : g.next32.2.increment = g.increment := by
  have h := g.increment_next64
  obtain ⟨s, i, half⟩ := g
  cases half with
  | some b => rfl
  | none =>
    simp only [next32]
    generalize next64 ⟨s, i, none⟩ = draw at h ⊢
    exact h

theorem increment_drawBelow (n : Nat) : ∀ (tries : Nat) (g : Generator),
    (drawBelow n tries g).2.increment = g.increment
  | 0, g => increment_next32 g
  | tries + 1, g => by
    simp only [drawBelow]
    split
    · rw [increment_drawBelow n tries, increment_next32]
    · exact increment_next32 g

/-- Draws leave the increment alone. -/
theorem increment_below (n : Nat) (g : Generator) : (g.below n).2.increment = g.increment := by
  unfold below
  split
  · rfl
  · exact increment_drawBelow n _ g

theorem increment_coin (g : Generator) : g.coin.2.increment = g.increment := by
  have h := increment_below 2 g
  unfold coin
  generalize g.below 2 = draw at h ⊢
  exact h

theorem length_coins : ∀ (n : Nat) (g : Generator), (coins n g).1.length = n
  | 0, _ => rfl
  | n + 1, g => by simp [coins, length_coins n]

end Generator

/-- The words of an integer seed; `shown` is what a message calls the seed. -/
def integerWords (shown : String) (v : Value) : Except Error (List UInt32) :=
  match v.integer? with
  | some n => if n < 0 then .error .negativeSeed else .ok (seedWords n.toNat)
  | none => .error (.seedKind shown)

/-- The words of a seed value: an integer, or a list of integers whose words are put together. -/
def entropy? (seed : Value) : Except Error (List UInt32) :=
  match seed with
  | .list items => (items.mapM (integerWords seed.display)).map List.flatten
  | _ => integerWords seed.display seed

/-- The generator of a seed value. -/
def Generator.ofValue (seed : Value) : Except Error Generator :=
  (entropy? seed).map Generator.ofWords

/-- An integer seeds a generator if it is not negative. -/
theorem Generator.ofValue_int (n : Int) : ofValue (.int n) =
    if n < 0 then .error .negativeSeed else .ok (ofWords (seedWords n.toNat)) := by
  simp only [ofValue, entropy?, integerWords, Value.integer?]
  split <;> rfl

end LocalSat.Random
