/-!
# Seeding

A seed of any size is cut into 32-bit words, hashed into a pool of four words, and the pool is hashed
out again into the 64-bit words that set up a generator. All arithmetic wraps at 32 bits.
-/

namespace LocalSat.Random

/-- Number of values of a 32-bit word. -/
abbrev wordSize : Nat := 4294967296

/-- The 32-bit words of a natural, the lowest first; zero has one word. -/
def seedWords (n : Nat) : List UInt32 :=
  if _h : n < wordSize then [n.toUInt32] else n.toUInt32 :: seedWords (n / wordSize)
termination_by n
decreasing_by simp only [wordSize] at *; omega

/-- A running hash constant: it is multiplied after each use. -/
structure HashConstant where
  value : UInt32
  factor : UInt32

/-- Hashes one word and moves the constant on. -/
def HashConstant.mix (h : HashConstant) (v : UInt32) : UInt32 × HashConstant :=
  let next := h.value * h.factor
  let v := (v ^^^ h.value) * next
  (v ^^^ (v >>> 16), { h with value := next })

/-- Folds the word `y` into `x`. -/
def fold (x y : UInt32) : UInt32 :=
  let r := 0xca01f9dd * x - 0x4973f715 * y
  r ^^^ (r >>> 16)

/-- The hash of each word in turn. -/
def hashAll (h : HashConstant) : List UInt32 → List UInt32 × HashConstant
  | [] => ([], h)
  | v :: vs =>
    let (w, h) := h.mix v
    let (ws, h) := hashAll h vs
    (w :: ws, h)

/-- Folds a freshly hashed `v` into every pool entry but the one at `skip`. -/
def foldInto (h : HashConstant) (v : UInt32) (skip : Option Nat) :
    Nat → List UInt32 → List UInt32 × HashConstant
  | _, [] => ([], h)
  | d, x :: xs =>
    if skip = some d then
      let (ys, h) := foldInto h v skip (d + 1) xs
      (x :: ys, h)
    else
      let (w, h) := h.mix v
      let (ys, h) := foldInto h v skip (d + 1) xs
      (fold x w :: ys, h)

/-- The pool of four words that a seed's words are hashed into. -/
def pool (words : List UInt32) : List UInt32 :=
  let first := (words ++ List.replicate 4 0).take 4
  let start := hashAll ⟨0x43b0d7e5, 0x931e8875⟩ first
  let crossed := (List.range 4).foldl
    (fun (p, h) s => foldInto h (p.getD s 0) (some s) 0 p) start
  ((words.drop 4).foldl (fun (p, h) v => foldInto h v none 0 p) crossed).1

/-- Pairs neighbouring words into 64-bit words, the low half first. -/
def pairUp : List UInt32 → List UInt64
  | low :: high :: rest => (low.toUInt64 ||| (high.toUInt64 <<< 32)) :: pairUp rest
  | _ => []

/-- The four 64-bit words that the words of a seed set a generator up with. -/
def setup (words : List UInt32) : List UInt64 :=
  let p := pool words
  pairUp (hashAll ⟨0x8b51f9dd, 0x58f38ded⟩ (p ++ p)).1

end LocalSat.Random
